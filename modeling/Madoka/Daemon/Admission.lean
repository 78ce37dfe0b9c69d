import Madoka.Network.Messages
import Madoka.Security.Invite
import Madoka.Security.TrustStore

/-!
# Admission

How `run_session` decides about a JOIN_REQUEST (`core/daemon.cpp`): the
checks on the request, then, under the trust mutex, the invitation and
`trust_add`.
-/

namespace Madoka

open Octets

variable (x : External)

/-- The request names the authenticated peer, with the address and an
endpoint that fit. -/
def joinRequestValid (network : IPv6) (peerId : NodeId) (peerKey : PublicKey)
    (request : JoinRequest) : Bool :=
  request.nodeId = peerId ∧ request.publicKey = peerKey
    ∧ request.virtualAddress = virtualAddress network request.nodeId
    ∧ usableEndpoint x request.endpoint

/-- What the system answers during one admission. -/
structure AdmissionAnswers where
  consume : ConsumeAnswers
  add : TrustAddAnswers

/-- The peer a request asks to be trusted as. -/
def requestedPeer (request : JoinRequest) : TrustedPeer where
  id := request.nodeId
  publicKey := request.publicKey
  endpoint := request.endpoint

/-- The first decision, before `trust_add`: the peer is known and shows no
invitation, or it shows one that can be consumed. -/
def invitedOrKnown (network : IPv6) (localId : NodeId) (trust : TrustState) (d : Directory)
    (request : JoinRequest) (nowSeconds : UInt64) (answers : ConsumeAnswers) : Bool × Directory :=
  let known := trustFind trust request.nodeId
  let keyMatches := known.all fun peer => peer.publicKey = request.publicKey
  if known.isSome ∧ request.inviteToken = [] ∧ keyMatches then (true, d)
  else if keyMatches ∧ request.inviteToken ≠ []
      ∧ trustAddressAvailable trust network localId request.nodeId then
    match inviteDecode x request.inviteToken with
    | .error _ => (false, d)
    | .ok invitation =>
        match inviteConsume x d invitation localId nowSeconds answers with
        | (.error _, d) => (false, d)
        | (.ok (), d) => (true, d)
  else (false, d)

/-- The block `run_session` runs under the trust mutex. -/
def admitJoin (network : IPv6) (localId : NodeId) (trust : TrustState) (d : Directory)
    (request : JoinRequest) (nowSeconds : UInt64) (answers : AdmissionAnswers) :
    Bool × TrustState × Directory :=
  match invitedOrKnown x network localId trust d request nowSeconds answers.consume with
  | (false, d) => (false, trust, d)
  | (true, d) =>
      match trustAdd x trust d (requestedPeer request) answers.add with
      | (.error _, trust, d) => (false, trust, d)
      | (.ok (), trust, d) => (true, trust, d)

variable {x}

/-! ## What an admission leaves -/

section
variable (network : IPv6) (localId : NodeId) (trust : TrustState) (d : Directory)
  (request : JoinRequest) (nowSeconds : UInt64)

/-- The two ways past the first decision. -/
theorem invitedOrKnown_true {answers : ConsumeAnswers}
    (h : (invitedOrKnown x network localId trust d request nowSeconds answers).1 = true) :
    (trustContains trust request.nodeId = true ∧ request.inviteToken = []
      ∧ (invitedOrKnown x network localId trust d request nowSeconds answers).2 = d)
    ∨ ∃ invitation, inviteDecode x request.inviteToken = .ok invitation
      ∧ (inviteConsume x d invitation localId nowSeconds answers).1 = .ok ()
      ∧ (invitedOrKnown x network localId trust d request nowSeconds answers).2
        = (inviteConsume x d invitation localId nowSeconds answers).2 := by
  unfold invitedOrKnown at h ⊢
  dsimp only at h ⊢
  split at h
  · rename_i hknown
    rw [if_pos hknown]
    exact .inl ⟨hknown.1, hknown.2.1, rfl⟩
  · rename_i hunknown
    rw [if_neg hunknown]
    split at h
    · rename_i hshown
      rw [if_pos hshown]
      right
      cases hdecode : inviteDecode x request.inviteToken with
      | error e =>
          rw [hdecode] at h
          cases h
      | ok invitation =>
          rw [hdecode] at h
          dsimp only at h ⊢
          refine ⟨invitation, rfl, ?_⟩
          cases hconsume : inviteConsume x d invitation localId nowSeconds answers with
          | mk result d' =>
              rw [hconsume] at h
              cases result with
              | error e => cases h
              | ok u => exact ⟨rfl, rfl⟩
    · cases h

/-- The first decision touches no file but the ticket's and the lock, and a
ticket file it can only remove. -/
theorem invitedOrKnown_lookup_invite (answers : ConsumeAnswers) (secret : ByteArr 16) :
    (invitedOrKnown x network localId trust d request nowSeconds answers).2.lookup
        (invitePath secret) = d.lookup (invitePath secret)
      ∨ (invitedOrKnown x network localId trust d request nowSeconds answers).2.lookup
        (invitePath secret) = none := by
  unfold invitedOrKnown
  dsimp only
  split
  · exact .inl rfl
  · split
    · split
      · exact .inl rfl
      · rename_i invitation hdecode
        have hconsume := inviteConsume_lookup_invite (x := x) d invitation localId nowSeconds
          answers secret
        generalize inviteConsume x d invitation localId nowSeconds answers = consumed at hconsume ⊢
        obtain ⟨result, d'⟩ := consumed
        cases result <;> exact hconsume
    · exact .inl rfl

theorem invitedOrKnown_lookup_peer (answers : ConsumeAnswers) (id : NodeId) :
    (invitedOrKnown x network localId trust d request nowSeconds answers).2.lookup
      (peerPath id) = d.lookup (peerPath id) := by
  unfold invitedOrKnown
  dsimp only
  split
  · rfl
  · split
    · split
      · rfl
      · rename_i invitation hdecode
        have hconsume := inviteConsume_lookup_other (x := x) d invitation localId nowSeconds
          answers (peerPath_ne_invitePath id invitation.secret) (peerPath_ne_stateLock id)
          (notTemporary_peerPath id)
        generalize inviteConsume x d invitation localId nowSeconds answers = consumed at hconsume ⊢
        obtain ⟨result, d'⟩ := consumed
        cases result <;> exact hconsume
    · rfl

/-- An admission is the first decision and then a successful `trust_add`;
without it the memory is as before. -/
theorem admitJoin_cases (answers : AdmissionAnswers) :
    ((admitJoin x network localId trust d request nowSeconds answers).1 = false
      ∧ (admitJoin x network localId trust d request nowSeconds answers).2.1 = trust)
    ∨ ((admitJoin x network localId trust d request nowSeconds answers).1 = true
      ∧ (invitedOrKnown x network localId trust d request nowSeconds answers.consume).1 = true
      ∧ validEndpoint x request.endpoint = true
      ∧ validIdentityBinding x (requestedPeer request) = true
      ∧ (admitJoin x network localId trust d request nowSeconds answers).2.1.peers
        = LowerBound.put TrustedPeer.id (requestedPeer request) trust.peers) := by
  unfold admitJoin
  cases hfirst : invitedOrKnown x network localId trust d request nowSeconds answers.consume with
  | mk admitted d' =>
      cases admitted with
      | false => exact .inl ⟨rfl, rfl⟩
      | true =>
          rcases trustAdd_cases x trust d' (requestedPeer request) answers.add with
            ⟨e, herror, hstate, -⟩ | ⟨hendpoint, hbinding, -, -, hadd⟩
          · left
            dsimp only
            generalize trustAdd x trust d' (requestedPeer request) answers.add = added
              at herror hstate ⊢
            obtain ⟨result, trust', d''⟩ := added
            cases herror
            exact ⟨rfl, hstate⟩
          · right
            dsimp only
            rw [hadd]
            exact ⟨rfl, rfl, hendpoint, hbinding, rfl⟩

/-- Past the first decision only the peer's own record is written. -/
theorem admitJoin_lookup_other (answers : AdmissionAnswers) {n : Bytes} (hne : n ≠ peerPath request.nodeId)
    (hn : NotTemporary n) :
    (admitJoin x network localId trust d request nowSeconds answers).2.2.lookup n
      = (invitedOrKnown x network localId trust d request nowSeconds answers.consume).2.lookup
        n := by
  unfold admitJoin
  cases hfirst : invitedOrKnown x network localId trust d request nowSeconds answers.consume with
  | mk admitted d' =>
      cases admitted with
      | false => rfl
      | true =>
          have hadd := trustAdd_lookup_other x trust d' (requestedPeer request) answers.add hne hn
          dsimp only
          generalize trustAdd x trust d' (requestedPeer request) answers.add = added at hadd ⊢
          obtain ⟨result, trust', d''⟩ := added
          cases result <;> exact hadd

end

/-! ## Refusals -/

variable (x) in
/-- A stored, unexpired ticket, shown by an authenticated peer in a request
that passed the checks. The endpoint came in a JOIN_REQUEST, which bounds
its length. -/
structure TicketShown (network : IPv6) (peerId : NodeId) (peerKey : PublicKey)
    (trust : TrustState) (d : Directory) (ticket : InviteTicket) (request : JoinRequest)
    (nowSeconds : UInt64) : Prop where
  directory : trust.directory ≠ []
  token : request.inviteToken = inviteEncode x ticket
  valid : inviteEncode x ticket ≠ []
  fresh : ticket.consumed = false
  stored : d.lookup (invitePath ticket.secret) = some (inviteEncode x ticket ++ [newline])
  unexpired : nowSeconds < ticket.expiresAt
  authenticated : x.sha256 peerKey = peerId
  checked : joinRequestValid x network peerId peerKey request = true
  onWire : request.endpoint.length ≤ 255

/-- The ticket's file is there as before, and so are the trusted peers, in
memory and on disk. -/
def InvitationKept (trust : TrustState) (d : Directory) (ticket : InviteTicket)
    (result : Bool × TrustState × Directory) : Prop :=
  result.2.2.lookup (invitePath ticket.secret) = d.lookup (invitePath ticket.secret)
    ∧ result.2.1 = trust ∧ ∀ id, result.2.2.lookup (peerPath id) = d.lookup (peerPath id)

/-- The request gets as far as removing the ticket's file. -/
def TicketRemoved (network : IPv6) (localId : NodeId) (trust : TrustState) (d : Directory)
    (request : JoinRequest) (ticket : InviteTicket) (answers : ConsumeAnswers) : Prop :=
  ((trustFind trust request.nodeId).all fun peer => peer.publicKey = request.publicKey) = true
    ∧ trustAddressAvailable trust network localId request.nodeId = true
    ∧ ticket.inviterId = localId ∧ (fileLockAcquire d stateLock answers.lock).1 = .ok ()
    ∧ answers.read = none ∧ answers.removed = true

/-- One of the steps after the removal fails: the sync of the directory, the
time of a ticket dated later than now, a rule of `trust_add` that the request
was not checked against, the full table, or the writing of the record. -/
def FailsAfterRemoval (trust : TrustState) (d : Directory) (request : JoinRequest)
    (ticket : InviteTicket) (nowSeconds : UInt64) (answers : AdmissionAnswers) : Prop :=
  answers.consume.syncParent ≠ none ∨ nowSeconds < ticket.createdAt ∨ 0 ∈ request.endpoint
    ∨ answers.add.ensureDirectory ≠ none
    ∨ ((∀ p ∈ trust.peers, p.id < request.nodeId) ∧ trust.peers.length = maxTrustedPeers)
    ∨ (privateWriteAtomically
        ((fileLockAcquire d stateLock answers.consume.lock).2.erase (invitePath ticket.secret))
        (peerPath request.nodeId) (encodePeer (requestedPeer request)) answers.add.write).1
      ≠ .ok ()

section
variable {network : IPv6} {localId peerId : NodeId} {peerKey : PublicKey} {trust : TrustState}
  {d : Directory} {ticket : InviteTicket} {request : JoinRequest} {nowSeconds : UInt64}

/-- With a ticket shown, the first decision is about the ticket. -/
theorem invitedOrKnown_shown
    (h : TicketShown x network peerId peerKey trust d ticket request nowSeconds)
    (answers : ConsumeAnswers) :
    invitedOrKnown x network localId trust d request nowSeconds answers
      = if ((trustFind trust request.nodeId).all fun peer => peer.publicKey = request.publicKey)
            ∧ trustAddressAvailable trust network localId request.nodeId then
          match inviteConsume x d ticket localId nowSeconds answers with
          | (.error _, d) => (false, d)
          | (.ok (), d) => (true, d)
        else (false, d) := by
  have htoken : request.inviteToken ≠ [] := by
    rw [h.token]
    exact h.valid
  have hdecode : inviteDecode x request.inviteToken = .ok ticket := by
    rw [h.token, inviteDecode_encode h.valid, ← h.fresh]
  unfold invitedOrKnown
  dsimp only
  rw [if_neg (fun hk => htoken hk.2.1), hdecode]
  simp [htoken]

theorem invitedOrKnown_removed
    (h : TicketShown x network peerId peerKey trust d ticket request nowSeconds)
    {answers : ConsumeAnswers}
    (hremoved : TicketRemoved network localId trust d request ticket answers) :
    (invitedOrKnown x network localId trust d request nowSeconds answers).2
        = (fileLockAcquire d stateLock answers.lock).2.erase (invitePath ticket.secret)
      ∧ ((invitedOrKnown x network localId trust d request nowSeconds answers).1 = true
        ↔ answers.syncParent = none ∧ ticket.createdAt ≤ nowSeconds) := by
  obtain ⟨hkey, haddress, hinviter, hlocked, hread, hgone⟩ := hremoved
  have hkeep := fileLockAcquire_lookup d answers.lock
    (invitePath_ne_stateLock ticket.secret) (notTemporary_invitePath ticket.secret)
  rw [invitedOrKnown_shown h, if_pos ⟨hkey, haddress⟩]
  unfold inviteConsume
  rw [if_neg (by simp [hinviter, h.fresh])]
  generalize fileLockAcquire d stateLock answers.lock = locked at hkeep hlocked ⊢
  obtain ⟨result, d'⟩ := locked
  cases hlocked
  have hlater := consumeLocked_stored answers h.valid (hkeep.trans h.stored)
    h.unexpired
  rw [if_pos ⟨hread, hgone⟩] at hlater
  dsimp only
  generalize consumeLocked x d' ticket nowSeconds answers = consumed at hlater ⊢
  obtain ⟨result, d''⟩ := consumed
  cases result with
  | error e => simpa using hlater
  | ok u => simpa using hlater

theorem invitedOrKnown_not_removed
    (h : TicketShown x network peerId peerKey trust d ticket request nowSeconds)
    {answers : ConsumeAnswers}
    (hremoved : ¬ TicketRemoved network localId trust d request ticket answers) :
    (invitedOrKnown x network localId trust d request nowSeconds answers).1 = false
      ∧ (invitedOrKnown x network localId trust d request nowSeconds answers).2.lookup
          (invitePath ticket.secret) = d.lookup (invitePath ticket.secret) := by
  have hkeep := fileLockAcquire_lookup d answers.lock
    (invitePath_ne_stateLock ticket.secret) (notTemporary_invitePath ticket.secret)
  rw [invitedOrKnown_shown h]
  split
  · rename_i hopen
    unfold inviteConsume
    by_cases hinviter : ticket.inviterId = localId
    · rw [if_neg (by simp [hinviter, h.fresh])]
      cases hlock : fileLockAcquire d stateLock answers.lock with
      | mk result d' =>
          rw [hlock] at hkeep
          cases result with
          | error e => exact ⟨rfl, hkeep⟩
          | ok u =>
              have hlater := consumeLocked_stored answers h.valid
                (hkeep.trans h.stored) h.unexpired
              have hread : ¬ (answers.read = none ∧ answers.removed = true) := fun hr =>
                hremoved ⟨hopen.1, hopen.2, hinviter, by rw [hlock], hr⟩
              rw [if_neg hread] at hlater
              obtain ⟨e, he⟩ := hlater
              dsimp only
              rw [he]
              exact ⟨rfl, hkeep⟩
    · rw [if_pos (.inl hinviter)]
      exact ⟨rfl, rfl⟩
  · exact ⟨rfl, rfl⟩

/-- After the removal the peer is admitted exactly when no later step fails. -/
theorem admitJoin_removed
    (h : TicketShown x network peerId peerKey trust d ticket request nowSeconds)
    {answers : AdmissionAnswers}
    (hremoved : TicketRemoved network localId trust d request ticket answers.consume) :
    (admitJoin x network localId trust d request nowSeconds answers).1 = true
      ↔ ¬ FailsAfterRemoval trust d request ticket nowSeconds answers := by
  obtain ⟨hdisk, hfirst⟩ := invitedOrKnown_removed h hremoved
  obtain ⟨hid, hkey, -, husable⟩ : request.nodeId = peerId ∧ request.publicKey = peerKey
      ∧ request.virtualAddress = virtualAddress network request.nodeId
      ∧ usableEndpoint x request.endpoint = true := by
    have hchecked := h.checked
    rwa [joinRequestValid, decide_eq_true_eq] at hchecked
  have hbinding : validIdentityBinding x (requestedPeer request) = true := by
    have hnonzero : request.nodeId ≠ zero 32 := by
      have haddress := hremoved.2.1
      unfold trustAddressAvailable at haddress
      split at haddress
      · cases haddress
      · rename_i hne
        exact fun hz => hne (.inl hz)
    rw [validIdentityBinding, decide_eq_true_eq]
    exact ⟨hnonzero, by rw [requestedPeer, hkey, hid, h.authenticated]⟩
  have hendpoint : validEndpoint x request.endpoint = true ↔ 0 ∉ request.endpoint := by
    have hne : request.endpoint ≠ [] := by
      intro hempty
      rw [hempty] at husable
      simp [usableEndpoint, parseEndpoint] at husable
    rw [validEndpoint_iff]
    exact ⟨fun hv => hv.2.2.1, fun hz => ⟨hne, h.onWire, hz, husable⟩⟩
  have hadd := trustAdd_ok_iff x trust
    ((fileLockAcquire d stateLock answers.consume.lock).2.erase (invitePath ticket.secret))
    (requestedPeer request) answers.add
  have hgoal : (admitJoin x network localId trust d request nowSeconds answers).1 = true ↔
      (answers.consume.syncParent = none ∧ ticket.createdAt ≤ nowSeconds)
        ∧ (trustAdd x trust ((fileLockAcquire d stateLock answers.consume.lock).2.erase
          (invitePath ticket.secret)) (requestedPeer request) answers.add).1 = .ok () := by
    rw [← hfirst, ← hdisk]
    unfold admitJoin
    cases hresult : invitedOrKnown x network localId trust d request nowSeconds
        answers.consume with
    | mk admitted d' =>
        cases admitted with
        | false => simp
        | true =>
            dsimp only
            generalize trustAdd x trust d' (requestedPeer request) answers.add = added
            obtain ⟨result, trust', d''⟩ := added
            cases result <;> simp
  rw [hgoal, hadd]
  have hb : validIdentityBinding x
      { id := request.nodeId, publicKey := request.publicKey, endpoint := request.endpoint }
      = true := hbinding
  simp only [FailsAfterRemoval, requestedPeer, hendpoint, h.directory, hb, ne_eq,
    not_false_eq_true, true_and, not_or, not_not, UInt64.not_lt, and_assoc]

/-- A refused join leaves the invitation and the trust store as they were,
except exactly when a step fails after the ticket's file was removed. -/
theorem refused_join_keeps_invitation
    (h : TicketShown x network peerId peerKey trust d ticket request nowSeconds)
    (answers : AdmissionAnswers) :
    ((admitJoin x network localId trust d request nowSeconds answers).1 = false →
        InvitationKept trust d ticket
          (admitJoin x network localId trust d request nowSeconds answers))
      ↔ ¬ (TicketRemoved network localId trust d request ticket answers.consume
        ∧ FailsAfterRemoval trust d request ticket nowSeconds answers) := by
  have hlookup := admitJoin_lookup_other (x := x) network localId trust d request nowSeconds
    answers (Ne.symm (peerPath_ne_invitePath request.nodeId ticket.secret))
    (notTemporary_invitePath ticket.secret)
  by_cases hremoved : TicketRemoved network localId trust d request ticket answers.consume
  · have hadmit := admitJoin_removed h hremoved
    constructor
    · intro hkept hfail
      have hrefused : (admitJoin x network localId trust d request nowSeconds answers).1
          = false := by
        rw [← Bool.not_eq_true, hadmit]
        exact fun hno => hno hfail.2
      -- the file was there, and now it is not
      have hfile := (hkept hrefused).1
      rw [hlookup, (invitedOrKnown_removed h hremoved).1, AList.lookup_erase, h.stored] at hfile
      cases hfile
    · intro hno hrefused
      have hadmitted := hadmit.mpr fun hfail => hno ⟨hremoved, hfail⟩
      rw [hrefused] at hadmitted
      cases hadmitted
  · obtain ⟨hfirst, hkeep⟩ := invitedOrKnown_not_removed h hremoved
    refine iff_of_true (fun _ => ⟨hlookup.trans hkeep, ?_, fun id => ?_⟩)
      (fun hboth => hremoved hboth.1)
    · rcases admitJoin_cases (x := x) network localId trust d request nowSeconds answers with
        ⟨-, hsame⟩ | ⟨-, htrue, -⟩
      · exact hsame
      · rw [hfirst] at htrue
        cases htrue
    · have hpeer := invitedOrKnown_lookup_peer (x := x) network localId trust d request
        nowSeconds answers.consume id
      rw [← hpeer]
      unfold admitJoin
      generalize invitedOrKnown x network localId trust d request nowSeconds answers.consume
        = first at hfirst ⊢
      obtain ⟨admitted, d'⟩ := first
      cases hfirst
      rfl

end

/-! ## A refusal that burns the invitation -/

/-- The network `fd00::/64`. -/
def sampleNetwork : IPv6 := leading 0xfd 15

def sampleInviter : NodeId := repeated 32 7

def sampleTicket : InviteTicket where
  network := sampleNetwork
  secret := repeated 16 9
  inviterId := sampleInviter
  inviterEndpoint := ascii "127.0.0.1:9000"
  createdAt := 1
  expiresAt := 3601
  consumed := false

def sampleRequest (peer : TrustedPeer) : JoinRequest where
  nodeId := peer.id
  publicKey := peer.publicKey
  virtualAddress := virtualAddress sampleNetwork peer.id
  endpoint := peer.endpoint
  timestamp := 0
  nonce := 0
  inviteToken := inviteEncode posix sampleTicket

/-- A state directory that holds the sample ticket alone. -/
def sampleDirectory : Directory :=
  (∅ : Directory).insert (invitePath sampleTicket.secret)
    (inviteEncode posix sampleTicket ++ [newline])

/-- Everything works but for the lock. -/
def sampleAnswers (lock : SystemResult) : AdmissionAnswers where
  consume := { lock := { LockAnswers.success (zero 16) with lock := lock }
               read := none, removed := true, syncParent := none }
  add := { ensureDirectory := none, write := .success (zero 16) }

theorem sampleTicket_shown (trust : TrustState) (hdir : trust.directory ≠ []) :
    TicketShown posix sampleNetwork (numberedPeer 1).id (numberedPeer 1).publicKey trust
      sampleDirectory sampleTicket (sampleRequest (numberedPeer 1)) 100 where
  directory := hdir
  token := rfl
  valid := by decide
  fresh := rfl
  stored := by decide
  unexpired := by decide
  authenticated := rfl
  checked := by decide
  onWire := by decide

/-- A busy lock refuses the join and keeps the invitation. -/
theorem refused_join_keeps_invitation_lock_busy :
    (admitJoin posix sampleNetwork sampleInviter emptyTrust sampleDirectory
        (sampleRequest (numberedPeer 1)) 100 (sampleAnswers (some "busy"))).1 = false
      ∧ InvitationKept emptyTrust sampleDirectory sampleTicket
        (admitJoin posix sampleNetwork sampleInviter emptyTrust sampleDirectory
          (sampleRequest (numberedPeer 1)) 100 (sampleAnswers (some "busy"))) := by
  have hrefused : (admitJoin posix sampleNetwork sampleInviter emptyTrust sampleDirectory
      (sampleRequest (numberedPeer 1)) 100 (sampleAnswers (some "busy"))).1 = false := by
    decide +kernel
  have hlocked : ¬ (TicketRemoved sampleNetwork sampleInviter emptyTrust sampleDirectory
        (sampleRequest (numberedPeer 1)) sampleTicket (sampleAnswers (some "busy")).consume
      ∧ FailsAfterRemoval emptyTrust sampleDirectory (sampleRequest (numberedPeer 1)) sampleTicket
        100 (sampleAnswers (some "busy"))) := by
    intro h
    exact absurd h.1.2.2.2.1 (by decide)
  exact ⟨hrefused, (refused_join_keeps_invitation (sampleTicket_shown emptyTrust (by decide))
    (sampleAnswers (some "busy"))).mpr hlocked hrefused⟩

/-- Fifteen trusted peers, all below the newcomer. -/
def fullTrust : TrustState where
  directory := trustDirectory (ascii "identity")
  peers := (((List.range 16).filter (· ≠ 1)).map fun n => numberedPeer n.toUInt8).insertionSort
    fun left right => left.id ≤ right.id

/-- A full table turns the newcomer away after its ticket has been used. -/
theorem refused_join_burns_invitation :
    TicketShown posix sampleNetwork (numberedPeer 1).id (numberedPeer 1).publicKey fullTrust
        sampleDirectory sampleTicket (sampleRequest (numberedPeer 1)) 100
      ∧ ¬ ((admitJoin posix sampleNetwork sampleInviter fullTrust sampleDirectory
          (sampleRequest (numberedPeer 1)) 100 (sampleAnswers none)).1 = false →
        InvitationKept fullTrust sampleDirectory sampleTicket
          (admitJoin posix sampleNetwork sampleInviter fullTrust sampleDirectory
            (sampleRequest (numberedPeer 1)) 100 (sampleAnswers none))) := by
  refine ⟨sampleTicket_shown fullTrust (by decide), fun h => ?_⟩
  have hrefused : (admitJoin posix sampleNetwork sampleInviter fullTrust sampleDirectory
      (sampleRequest (numberedPeer 1)) 100 (sampleAnswers none)).1 = false := by
    decide +kernel
  exact absurd (h hrefused).1 (by decide +kernel)

end Madoka

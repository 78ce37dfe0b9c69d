import Madoka.Daemon.Admission
import Madoka.Lib.Run

/-!
# Invitations

An inviting node over a whole run: tickets are stored, sessions show tokens
in JOIN_REQUESTs, and each ticket admits at most one of them.
-/

namespace Madoka

open Octets

/-- The node's trust store, and what has happened so far: the tickets handed
to `invite_store`, and the tickets shown by the requests that were admitted. -/
structure InviterHistory where
  trust : TrustState
  directory : Directory
  issued : List InviteTicket
  honoured : List InviteTicket

/-- The atomic steps: a call of `invite_store`, and the admission block of a
session for one request. -/
inductive InviterOp where
  | store (ticket : InviteTicket) (answers : StoreAnswers)
  | request (request : JoinRequest) (nowSeconds : UInt64) (answers : AdmissionAnswers)

/-- The secret of the ticket an operation issues. -/
def InviterOp.secret : InviterOp → Option (ByteArr 16)
  | .store ticket _ => some ticket.secret
  | .request _ _ _ => none

variable (x : External) (network : IPv6) (localId : NodeId)

/-- The ticket a request's token stands for. -/
def shownTicket (request : JoinRequest) : Option InviteTicket :=
  match inviteDecode x request.inviteToken with
  | .ok ticket => some ticket
  | .error _ => none

def inviterStep (h : InviterHistory) : InviterOp → InviterHistory
  | .store ticket answers =>
      { h with
        directory := (inviteStore x h.trust h.directory ticket answers).2
        -- the flag is not part of what is stored
        issued := h.issued ++ [{ ticket with consumed := false }] }
  | .request request nowSeconds answers =>
      let result := admitJoin x network localId h.trust h.directory request nowSeconds answers
      { h with
        trust := result.2.1
        directory := result.2.2
        honoured := if result.1 then h.honoured ++ (shownTicket x request).toList
          else h.honoured }

/-! ## The invariant -/

/-- Every ticket file holds an issued ticket, and none holds one that has
already admitted somebody. -/
structure InvitationsSound (h : InviterHistory) : Prop where
  sorted : LowerBound.Sorted TrustedPeer.id h.trust.peers
  files : ∀ secret contents, h.directory.lookup (invitePath secret) = some contents →
    ∃ t ∈ h.issued, t.secret = secret ∧ t.consumed = false ∧ inviteEncode x t ≠ []
      ∧ contents = inviteEncode x t ++ [newline]
  honoured_issued : ∀ t ∈ h.honoured, t ∈ h.issued
  honoured_gone : ∀ t ∈ h.honoured, h.directory.lookup (invitePath t.secret) = none
  once : (h.honoured.map InviteTicket.secret).Nodup

/-- The request's ticket was issued by this node, is on file field by field,
and is in time; consuming it succeeds. -/
def TicketHonoured (h : InviterHistory) (request : JoinRequest) (nowSeconds : UInt64)
    (answers : AdmissionAnswers) (ticket : InviteTicket) : Prop :=
  ticket ∈ h.issued ∧ inviteDecode x request.inviteToken = .ok ticket
    ∧ h.directory.lookup (invitePath ticket.secret) = some (inviteEncode x ticket ++ [newline])
    ∧ ticket.inviterId = localId
    ∧ ticket.createdAt ≤ nowSeconds ∧ nowSeconds < ticket.expiresAt
    ∧ (inviteConsume x h.directory ticket localId nowSeconds answers.consume).1 = .ok ()

/-- An admission is of a trusted peer without a token or by a ticket, and an
identifier becomes trusted by an admission with a ticket only. -/
def AdmissionJustified (h : InviterHistory) : InviterOp → Prop
  | .store _ _ => True
  | .request request nowSeconds answers =>
      ((admitJoin x network localId h.trust h.directory request nowSeconds answers).1 = true →
        (request.inviteToken = [] ∧ trustContains h.trust request.nodeId = true)
        ∨ ∃ ticket, TicketHonoured x localId h request nowSeconds answers ticket)
      ∧ ∀ id, trustContains h.trust id = false →
        trustContains
          (admitJoin x network localId h.trust h.directory request nowSeconds answers).2.1 id
            = true →
        id = request.nodeId
          ∧ (admitJoin x network localId h.trust h.directory request nowSeconds answers).1 = true
          ∧ ∃ ticket, TicketHonoured x localId h request nowSeconds answers ticket

variable {x network localId}

theorem trustContains_iff {trust : TrustState}
    (hsorted : LowerBound.Sorted TrustedPeer.id trust.peers) (id : NodeId) :
    trustContains trust id = true ↔ ∃ peer ∈ trust.peers, peer.id = id := by
  rw [trustContains, trustFind, Option.isSome_iff_ne_none, ne_eq,
    LowerBound.find?_eq_none hsorted]
  push Not
  rfl

/-! ## One request -/

/-- An admitted request either showed no token or a ticket that is honoured. -/
theorem admitted_justified {h : InviterHistory} (hs : InvitationsSound x h)
    {request : JoinRequest} {nowSeconds : UInt64} {answers : AdmissionAnswers}
    (hadmitted : (admitJoin x network localId h.trust h.directory request nowSeconds
      answers).1 = true) :
    (request.inviteToken = [] ∧ trustContains h.trust request.nodeId = true)
      ∨ ∃ ticket, TicketHonoured x localId h request nowSeconds answers ticket
        ∧ (invitedOrKnown x network localId h.trust h.directory request nowSeconds
            answers.consume).2.lookup (invitePath ticket.secret) = none := by
  have hfirst : (invitedOrKnown x network localId h.trust h.directory request nowSeconds
      answers.consume).1 = true := by
    rcases admitJoin_cases (x := x) network localId h.trust h.directory request nowSeconds
      answers with ⟨hno, -⟩ | ⟨-, hyes, -⟩
    · rw [hno] at hadmitted
      cases hadmitted
    · exact hyes
  rcases invitedOrKnown_true (x := x) network localId h.trust h.directory request nowSeconds
    hfirst with ⟨hknown, htoken, -⟩ | ⟨ticket, hdecode, hconsume, hdisk⟩
  · exact .inl ⟨htoken, hknown⟩
  · right
    obtain ⟨hinviter, ⟨stored, hfile, hstored⟩, hcreated, hexpires, hgone⟩ :=
      inviteConsume_ok hconsume
    -- what is on file is the encoding of an issued ticket, so the shown one is that ticket
    obtain ⟨t, ht, hsecret, hfresh, hvalid, hcontents⟩ := hs.files _ _ hfile
    have hencode : stored = inviteEncode x t := List.append_cancel_right hcontents
    have hsame : t = ticket := by
      rw [hencode, inviteDecode_encode hvalid, ← hfresh] at hstored
      exact Except.ok.inj hstored
    subst hsame
    rw [hcontents] at hfile
    exact ⟨t, ⟨ht, hdecode, hfile, hinviter, hcreated, hexpires, hconsume⟩, hdisk ▸ hgone⟩

theorem request_justified {h : InviterHistory} (hs : InvitationsSound x h)
    (request : JoinRequest) (nowSeconds : UInt64) (answers : AdmissionAnswers) :
    AdmissionJustified x network localId h (.request request nowSeconds answers) := by
  constructor
  · intro hadmitted
    rcases admitted_justified hs hadmitted with hknown | ⟨ticket, hticket, -⟩
    · exact .inl hknown
    · exact .inr ⟨ticket, hticket⟩
  · intro id hbefore hafter
    rcases admitJoin_cases (x := x) network localId h.trust h.directory request nowSeconds
      answers with ⟨-, hsame⟩ | ⟨hadmitted, -, -, -, hput⟩
    · rw [hsame, hbefore] at hafter
      cases hafter
    · -- the only new member of the table is the peer of the request
      have hid : id = request.nodeId := by
        have hsorted := LowerBound.put_sorted hs.sorted (requestedPeer request)
        rw [← hput] at hsorted
        obtain ⟨peer, hpeer, rfl⟩ := (trustContains_iff hsorted id).mp hafter
        rw [hput, LowerBound.mem_put hs.sorted] at hpeer
        rcases hpeer with rfl | ⟨hold, -⟩
        · rfl
        · rw [(trustContains_iff hs.sorted peer.id).mpr ⟨peer, hold, rfl⟩] at hbefore
          cases hbefore
      refine ⟨hid, hadmitted, ?_⟩
      rcases admitted_justified hs hadmitted with ⟨-, hknown⟩ | ⟨ticket, hticket, -⟩
      · rw [← hid, hbefore] at hknown
        cases hknown
      · exact ⟨ticket, hticket⟩

/-- After the whole admission a ticket file is as before or gone. -/
theorem admitJoin_lookup_invite (network : IPv6) (localId : NodeId) (h : InviterHistory) (request : JoinRequest)
    (nowSeconds : UInt64) (answers : AdmissionAnswers) (secret : ByteArr 16) :
    (admitJoin x network localId h.trust h.directory request nowSeconds answers).2.2.lookup
        (invitePath secret) = h.directory.lookup (invitePath secret)
      ∨ (admitJoin x network localId h.trust h.directory request nowSeconds answers).2.2.lookup
        (invitePath secret) = none := by
  rw [admitJoin_lookup_other (x := x) network localId h.trust h.directory request nowSeconds
    answers (Ne.symm (peerPath_ne_invitePath request.nodeId secret))
    (notTemporary_invitePath secret)]
  exact invitedOrKnown_lookup_invite network localId h.trust h.directory request nowSeconds
    answers.consume secret

/-! ## One step -/

theorem inviterStep_store {h : InviterHistory} (hs : InvitationsSound x h)
    {ticket : InviteTicket} (hnew : ticket.secret ∉ h.issued.map InviteTicket.secret)
    (answers : StoreAnswers) :
    InvitationsSound x (inviterStep x network localId h (.store ticket answers)) := by
  have hlookup := inviteStore_lookup (x := x) h.trust h.directory ticket answers
  refine ⟨hs.sorted, ?_, ?_, ?_, hs.once⟩
  · intro secret contents hfile
    dsimp only [inviterStep] at hfile ⊢
    rcases hlookup secret with hkeep | hgone | ⟨rfl, hvalid, hwritten⟩
    · rw [hkeep] at hfile
      obtain ⟨t, ht, hrest⟩ := hs.files secret contents hfile
      exact ⟨t, List.mem_append_left _ ht, hrest⟩
    · rw [hgone] at hfile
      cases hfile
    · rw [hwritten] at hfile
      cases hfile
      exact ⟨{ ticket with consumed := false }, by simp, rfl, rfl, hvalid, rfl⟩
  · intro t ht
    exact List.mem_append_left _ (hs.honoured_issued t ht)
  · intro t ht
    have hold := hs.honoured_gone t ht
    rcases hlookup t.secret with hkeep | hgone | ⟨hsecret, -, -⟩
    · exact hkeep.trans hold
    · exact hgone
    · -- a used ticket's secret is issued, and the new one is not
      exact absurd (hsecret ▸ List.mem_map_of_mem (hs.honoured_issued t ht)) hnew

theorem inviterStep_request {h : InviterHistory} (hs : InvitationsSound x h)
    (request : JoinRequest) (nowSeconds : UInt64) (answers : AdmissionAnswers) :
    InvitationsSound x
      (inviterStep x network localId h (.request request nowSeconds answers)) := by
  have hlookup := admitJoin_lookup_invite (x := x) network localId h request nowSeconds answers
  have hsorted : LowerBound.Sorted TrustedPeer.id (admitJoin x network localId h.trust
      h.directory request nowSeconds answers).2.1.peers := by
    rcases admitJoin_cases (x := x) network localId h.trust h.directory request nowSeconds
      answers with ⟨-, hsame⟩ | ⟨-, -, -, -, hput⟩
    · rw [hsame]
      exact hs.sorted
    · rw [hput]
      exact LowerBound.put_sorted hs.sorted _
  have hfiles : ∀ secret contents, (admitJoin x network localId h.trust h.directory request
      nowSeconds answers).2.2.lookup (invitePath secret) = some contents →
      ∃ t ∈ h.issued, t.secret = secret ∧ t.consumed = false ∧ inviteEncode x t ≠ []
        ∧ contents = inviteEncode x t ++ [newline] := by
    intro secret contents hfile
    rcases hlookup secret with hkeep | hgone
    · rw [hkeep] at hfile
      exact hs.files secret contents hfile
    · rw [hgone] at hfile
      cases hfile
  have hgone : ∀ t ∈ h.honoured, (admitJoin x network localId h.trust h.directory request
      nowSeconds answers).2.2.lookup (invitePath t.secret) = none := by
    intro t ht
    rcases hlookup t.secret with hkeep | hgone
    · exact hkeep.trans (hs.honoured_gone t ht)
    · exact hgone
  by_cases hadmitted : (admitJoin x network localId h.trust h.directory request nowSeconds
      answers).1 = true
  · rcases admitted_justified hs hadmitted with ⟨htoken, -⟩ | ⟨ticket, hticket, hremoved⟩
    · have hshown : shownTicket x request = none := by
        rw [shownTicket, htoken]
        rfl
      have hnone : (inviterStep x network localId h
          (.request request nowSeconds answers)).honoured = h.honoured := by
        simp [inviterStep, hshown]
      exact ⟨hsorted, hfiles, hnone ▸ hs.honoured_issued, hnone ▸ hgone, hnone ▸ hs.once⟩
    · obtain ⟨hissued, hdecode, hfile, -⟩ := hticket
      have hone : (inviterStep x network localId h
          (.request request nowSeconds answers)).honoured = h.honoured ++ [ticket] := by
        simp [inviterStep, hadmitted, shownTicket, hdecode]
      refine ⟨hsorted, hfiles, ?_, ?_, ?_⟩
      · intro t ht
        rw [hone] at ht
        rcases List.mem_append.mp ht with hold | hnew
        · exact hs.honoured_issued t hold
        · rw [List.mem_singleton.mp hnew]
          exact hissued
      · intro t ht
        rw [hone] at ht
        rcases List.mem_append.mp ht with hold | hnew
        · exact hgone t hold
        · rw [List.mem_singleton.mp hnew]
          dsimp only [inviterStep]
          rw [admitJoin_lookup_other (x := x) network localId h.trust h.directory request
            nowSeconds answers (Ne.symm (peerPath_ne_invitePath request.nodeId ticket.secret))
            (notTemporary_invitePath ticket.secret)]
          exact hremoved
      · -- its file was there, so it had not been honoured before
        rw [hone, List.map_append, List.nodup_append]
        refine ⟨hs.once, by simp, ?_⟩
        intro a ha b hb hab
        obtain ⟨t, ht, rfl⟩ := List.mem_map.mp ha
        simp only [List.map_cons, List.map_nil, List.mem_singleton] at hb
        have hbefore := hs.honoured_gone t ht
        rw [hab, hb, hfile] at hbefore
        cases hbefore
  · have hnone : (inviterStep x network localId h
        (.request request nowSeconds answers)).honoured = h.honoured := by
      simp [inviterStep, hadmitted]
    exact ⟨hsorted, hfiles, hnone ▸ hs.honoured_issued, hnone ▸ hgone, hnone ▸ hs.once⟩

/-! ## Runs -/

/-- An operation that issues a ticket issues one with a new secret. -/
def SecretFresh (h : InviterHistory) : InviterOp → Prop
  | .store ticket _ => ticket.secret ∉ h.issued.map InviteTicket.secret
  | .request _ _ _ => True

theorem secretFresh_of_distinct {ops : List InviterOp} {h : InviterHistory}
    (hdistinct : (h.issued.map InviteTicket.secret
      ++ ops.filterMap InviterOp.secret).Nodup) :
    Run.Along (inviterStep x network localId) SecretFresh h ops := by
  induction ops generalizing h with
  | nil => trivial
  | cons op ops ih =>
      cases op with
      | store ticket answers =>
          have hperm : (h.issued.map InviteTicket.secret ++ ticket.secret
              :: ops.filterMap InviterOp.secret).Nodup := hdistinct
          refine ⟨?_, ih ?_⟩
          · intro hmem
            exact (List.nodup_append.mp hperm).2.2 _ hmem _ (List.mem_cons_self ..) rfl
          · simpa [inviterStep] using hperm
      | request request nowSeconds answers => exact ⟨trivial, ih hdistinct⟩

/-- Starting with a loaded trust store and no ticket on file, in every run
with distinct secrets: each issued ticket is shown by at most one admitted
request, and every admission is justified. -/
theorem invitation_admits_one {d : Directory} {identityFile : Bytes} {answers : LoadAnswers}
    {trust : TrustState} (hload : trustLoad x d identityFile answers = .ok trust)
    (hnone : ∀ secret, d.lookup (invitePath secret) = none) {ops : List InviterOp}
    (hdistinct : (ops.filterMap InviterOp.secret).Nodup) :
    Run.Throughout (inviterStep x network localId)
        (fun h => ∀ ticket ∈ h.issued, h.honoured.count ticket ≤ 1) ⟨trust, d, [], []⟩ ops
      ∧ Run.Along (inviterStep x network localId) (AdmissionJustified x network localId)
        ⟨trust, d, [], []⟩ ops := by
  have hsorted := (trustLoad_ok hload).2.2.2.1
  have hstart : InvitationsSound x ⟨trust, d, [], []⟩ := by
    refine ⟨hsorted, ?_, by simp, by simp, by simp⟩
    intro secret contents hfile
    rw [hnone secret] at hfile
    cases hfile
  have hfresh : Run.Along (inviterStep x network localId) SecretFresh ⟨trust, d, [], []⟩ ops :=
    secretFresh_of_distinct hdistinct
  have hsound : Run.Throughout (inviterStep x network localId) (InvitationsSound x)
      ⟨trust, d, [], []⟩ ops := by
    refine Run.throughout_of_along ?_ hstart hfresh
    intro h op hs hop
    cases op with
    | store ticket answers => exact inviterStep_store hs hop answers
    | request request nowSeconds answers => exact inviterStep_request hs request nowSeconds answers
  constructor
  · refine hsound.mono fun h hs ticket _ => ?_
    exact List.nodup_iff_count_le_one.mp hs.once.of_map ticket
  · refine Run.along_of_throughout ?_ hsound
    intro h op hs
    cases op with
    | store ticket answers => trivial
    | request request nowSeconds answers => exact request_justified hs request nowSeconds answers

def storeSample : InviterOp :=
  .store sampleTicket
    { ensureDirectory := none, lock := .success (zero 16), read := fun _ => none
      removeExpired := fun _ => none, iterate := none, inspectPath := none
      write := .success (zero 16) }

/-- The same token shown by two newcomers. -/
def showSampleTwice : List InviterOp :=
  [storeSample, .request (sampleRequest (numberedPeer 1)) 100 (sampleAnswers none),
    .request (sampleRequest (numberedPeer 2)) 101 (sampleAnswers none)]

theorem invitation_admits_one_of_two :
    Run.Throughout (inviterStep posix sampleNetwork sampleInviter)
        (fun h => ∀ ticket ∈ h.issued, h.honoured.count ticket ≤ 1)
        ⟨emptyTrust, ∅, [], []⟩ showSampleTwice
      ∧ Run.Along (inviterStep posix sampleNetwork sampleInviter)
        (AdmissionJustified posix sampleNetwork sampleInviter)
        ⟨emptyTrust, ∅, [], []⟩ showSampleTwice := by
  have hload : trustLoad posix ∅ (ascii "identity") .success = .ok emptyTrust := by
    decide
  exact invitation_admits_one hload (fun secret => rfl) (by decide)

end Madoka

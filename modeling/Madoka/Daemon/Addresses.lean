import Madoka.Daemon.Invitations
import Madoka.Daemon.Replies

/-!
# Addresses

The virtual addresses of a node and of the peers it trusts, over any sequence
of admissions and of the bootstrap's `trust_add`: the check is made relative
to the table at that moment, and keeps all of them apart.
-/

namespace Madoka

open Octets

variable {x : External} {network : IPv6} {localId : NodeId}

/-! ## What is kept -/

def hostPartZero (network : IPv6) (id : NodeId) : Bool :=
  ((virtualAddress network id).val.drop 8).all (· = 0)

/-- `app_init`: every loaded peer passes the check against the others. -/
def trustedAddressesAvailable (network : IPv6) (localId : NodeId) (trust : TrustState) : Bool :=
  trust.peers.all fun peer => trustAddressAvailable trust network localId peer.id

/-- What `app_init` can hand over: the stored peers, checked, or for a join
none. -/
def AppInitTrust (x : External) (network : IPv6) (localId : NodeId) (d : Directory)
    (trust : TrustState) : Prop :=
  (∃ identityFile answers, trustLoad x d identityFile answers = .ok trust
      ∧ trustedAddressesAvailable network localId trust = true)
    ∨ trust.peers = []

/-- The node's own address and the ones of the peers it trusts, each once. -/
def trustDomain (network : IPv6) (localId : NodeId) (trust : TrustState) : List IPv6 :=
  virtualAddress network localId :: trust.peers.map fun peer => virtualAddress network peer.id

/-- An identifier whose address no one else in the domain has. -/
structure Apart (network : IPv6) (localId : NodeId) (trust : TrustState) (id : NodeId) : Prop where
  own : virtualAddress network id ≠ virtualAddress network localId
  host : hostPartZero network id = false
  peers : ∀ peer ∈ trust.peers, virtualAddress network peer.id = virtualAddress network id →
    peer.id = id

structure DomainSound (network : IPv6) (localId : NodeId) (trust : TrustState) : Prop where
  sorted : LowerBound.Sorted TrustedPeer.id trust.peers
  apart : ∀ peer ∈ trust.peers, Apart network localId trust peer.id

theorem apart_of_available {trust : TrustState} {id : NodeId}
    (h : trustAddressAvailable trust network localId id = true) : Apart network localId trust id := by
  unfold trustAddressAvailable at h
  dsimp only at h
  split_ifs at h with hself htaken
  obtain ⟨hown, hhost⟩ := not_or.mp htaken
  refine ⟨hown, Bool.eq_false_iff.mpr hhost, fun peer hpeer heq => ?_⟩
  by_contra hne
  have hfree := List.all_eq_true.mp h peer hpeer
  simp [hne, heq] at hfree

/-- The addresses of a sound domain are pairwise distinct. -/
theorem DomainSound.nodup {trust : TrustState} (h : DomainSound network localId trust) :
    (trustDomain network localId trust).Nodup := by
  refine List.nodup_cons.mpr ⟨?_, ?_⟩
  · intro hmem
    obtain ⟨peer, hpeer, heq⟩ := List.mem_map.mp hmem
    exact (h.apart peer hpeer).own heq
  · rw [List.Nodup, List.pairwise_map]
    refine h.sorted.imp_of_mem fun {p q} hp hq hlt heq => ?_
    exact hlt.ne ((h.apart q hq).peers p hp heq)

/-! ## Putting one more peer -/

theorem DomainSound.put {trust trust' : TrustState} {peer : TrustedPeer}
    (h : DomainSound network localId trust) (hpeer : Apart network localId trust peer.id)
    (hput : trust'.peers = LowerBound.put TrustedPeer.id peer trust.peers) :
    DomainSound network localId trust' := by
  have hmem : ∀ p, p ∈ trust'.peers ↔ p = peer ∨ p ∈ trust.peers ∧ p.id ≠ peer.id := by
    intro p
    rw [hput, LowerBound.mem_put h.sorted]
  refine ⟨hput ▸ LowerBound.put_sorted h.sorted peer, fun p hp => ?_⟩
  rcases (hmem p).mp hp with rfl | ⟨hp, -⟩
  · refine ⟨hpeer.own, hpeer.host, fun q hq heq => ?_⟩
    rcases (hmem q).mp hq with rfl | ⟨hq, -⟩
    · rfl
    · exact hpeer.peers q hq heq
  · refine ⟨(h.apart p hp).own, (h.apart p hp).host, fun q hq heq => ?_⟩
    rcases (hmem q).mp hq with rfl | ⟨hq, -⟩
    · -- the new peer was checked against the one that was there
      exact (hpeer.peers p hp heq.symm).symm
    · exact (h.apart p hp).peers q hq heq

/-- The first decision of an admission: the peer is known, or its address is
free. -/
theorem invitedOrKnown_apart {trust : TrustState} {d : Directory} {request : JoinRequest}
    {nowSeconds : UInt64} {answers : ConsumeAnswers} (h : DomainSound network localId trust)
    (hadmitted : (invitedOrKnown x network localId trust d request nowSeconds answers).1 = true) :
    Apart network localId trust request.nodeId := by
  unfold invitedOrKnown at hadmitted
  dsimp only at hadmitted
  split_ifs at hadmitted with hknown hinvited
  · obtain ⟨peer, hpeer, hid⟩ := (trustContains_iff h.sorted request.nodeId).mp hknown.1
    rw [← hid]
    exact h.apart peer hpeer
  · exact apart_of_available hinvited.2.2

theorem DomainSound.admitJoin {trust : TrustState} (h : DomainSound network localId trust)
    (d : Directory) (request : JoinRequest) (nowSeconds : UInt64) (answers : AdmissionAnswers) :
    DomainSound network localId
      (admitJoin x network localId trust d request nowSeconds answers).2.1 := by
  rcases admitJoin_cases (x := x) network localId trust d request nowSeconds answers with
    ⟨-, hsame⟩ | ⟨-, hfirst, -, -, hput⟩
  · rw [hsame]
    exact h
  · exact h.put (invitedOrKnown_apart h hfirst) hput

theorem DomainSound.trustAdd {trust : TrustState} (h : DomainSound network localId trust)
    (d : Directory) (peer : TrustedPeer) (answers : TrustAddAnswers)
    (havailable : trustAddressAvailable trust network localId peer.id = true) :
    DomainSound network localId (trustAdd x trust d peer answers).2.1 := by
  rcases trustAdd_cases x trust d peer answers with ⟨e, -, hstate, -⟩ | ⟨-, -, -, -, hadd⟩
  · rw [hstate]
    exact h
  · apply h.put (apart_of_available havailable)
    rw [hadd]

/-! ## One event -/

theorem bootstrapJoin_domain (network : IPv6) {node : ContactNode}
    (h : DomainSound network node.table.localId node.trust) (peer : TlsPeer)
    (bootstrapEndpoint : Bytes) (control : ControlMessage) (answers : BootstrapAnswers) :
    DomainSound network node.table.localId
      (bootstrapJoin x network node peer bootstrapEndpoint control answers).trust := by
  unfold bootstrapJoin
  split
  · exact h
  · split
    · exact h
    · split
      · exact h
      · split
        · exact h
        · rename_i contact hcontact
          split
          · exact h
          · rename_i hopen
            have havailable : trustAddressAvailable node.trust network node.table.localId
                contact.id = true := by
              simpa using (not_or.mp hopen).1
            have hadd := h.trustAdd (x := x) node.directory
              { id := contact.id, publicKey := peer.pubkey, endpoint := contact.endpoint }
              answers.add havailable
            generalize trustAdd x node.trust node.directory _ answers.add = added at hadd ⊢
            obtain ⟨result, trust, directory⟩ := added
            cases result with
            | error e => exact hadd
            | ok u =>
                dsimp only
                split
                · exact hadd
                · exact hadd

theorem contactStep_domain (network : IPv6) (localContact : NodeContact) {node : ContactNode}
    (h : DomainSound network node.table.localId node.trust) (event : ContactEvent) :
    DomainSound network node.table.localId
      (contactStep x network localContact node event).trust := by
  cases event with
  | selfLookup replies => exact h
  | bootstrap peer bootstrapEndpoint control answers =>
      exact bootstrapJoin_domain network h peer bootstrapEndpoint control answers
  | frame trusted peer incoming nowSeconds answers =>
      rw [contactStep, contactEvent]
      split_ifs with hsender hjoin hstranger
      · exact h
      · unfold joinAdmission
        cases deserializeJoinRequest incoming.payload with
        | error e => exact h
        | ok request =>
            dsimp only
            split_ifs with hinvalid
            · exact h
            · have hadmit := h.admitJoin (x := x) node.directory request nowSeconds answers
              generalize Madoka.admitJoin x network node.table.localId node.trust node.directory
                request nowSeconds answers = result at hadmit ⊢
              obtain ⟨admitted, trust, directory⟩ := result
              cases admitted with
              | false => exact hadmit
              | true =>
                  dsimp only
                  rw [admittedFrame_trust]
                  exact hadmit
      · exact h
      · rw [admittedFrame_trust]
        exact h

/-- No event changes the node's own identifier. -/
theorem contactStep_localId (network : IPv6) (localContact : NodeContact) (node : ContactNode)
    (event : ContactEvent) :
    (contactStep x network localContact node event).table.localId = node.table.localId := by
  obtain ⟨-, ⟨-, htable⟩ | ⟨announce, -, htable⟩⟩ :=
    contactStep_cases (x := x) network localContact node event
  · exact htable.localId
  · rw [htable]
    exact (inserted_handleNodeAnnounce (Q := fun _ => True) trivial).localId

theorem seedTable_localId (network : IPv6) (localId : NodeId) (peers : List TrustedPeer) :
    (seedTable network localId peers).localId = localId := by
  have hfold : ∀ table, (peers.foldl (fun table peer =>
      (kademliaInsert table (trustedContact network peer) none).2) table).localId
        = table.localId := by
    induction peers with
    | nil => intro table; rfl
    | cons peer rest ih =>
        intro table
        rw [List.foldl_cons, ih, kademliaInsert_localId]
  exact hfold _

/-! ## Over whole runs -/

theorem domainSound_start {d : Directory} {trust : TrustState}
    (h : AppInitTrust x network localId d trust) : DomainSound network localId trust := by
  rcases h with ⟨identityFile, answers, hload, hchecked⟩ | hempty
  · refine ⟨(trustLoad_sound hload).1, fun peer hpeer => ?_⟩
    exact apart_of_available (List.all_eq_true.mp hchecked peer hpeer)
  · refine ⟨?_, fun peer hpeer => ?_⟩
    · rw [hempty]
      exact .nil
    · rw [hempty] at hpeer
      exact absurd hpeer List.not_mem_nil

/-- From what `app_init` accepts on, whoever is admitted or joined in whatever
order, the addresses of the node and of all it trusts are pairwise distinct,
and no trusted peer has the reserved all-zero host part. -/
theorem addresses_never_collide (d : Directory) (trust : TrustState)
    (h : AppInitTrust x network localId d trust) (localContact : NodeContact)
    (events : List ContactEvent) :
    Run.Throughout (contactStep x network localContact)
      (fun node => (trustDomain network localId node.trust).Nodup
        ∧ ∀ peer ∈ node.trust.peers, hostPartZero network peer.id = false)
      (startNode network localId trust d) events := by
  have hrun : Run.Throughout (contactStep x network localContact)
      (fun node => node.table.localId = localId ∧ DomainSound network localId node.trust)
      (startNode network localId trust d) events := by
    refine Run.throughout_of_step ?_ ⟨seedTable_localId network localId trust.peers,
      domainSound_start h⟩ events
    rintro node event ⟨hlocal, hdomain⟩
    rw [← hlocal] at hdomain
    refine ⟨(contactStep_localId network localContact node event).trans hlocal, ?_⟩
    rw [← hlocal]
    exact contactStep_domain network localContact hdomain event
  exact hrun.mono fun node hnode =>
    ⟨hnode.2.nodup, fun peer hpeer => (hnode.2.apart peer hpeer).host⟩

/-- The one trusted peer joins again, without an invitation. -/
def peerRejoins : ContactEvent :=
  peerFrame .joinRequest (serializeJoinRequest
    { sampleRequest (numberedPeer 0) with inviteToken := [] })

theorem addresses_never_collide_rejoin :
    (trustDomain sampleNetwork sampleLocalId (nodeAfter [peerRejoins]).trust).Nodup := by
  have hload : trustLoad posix onePeerDirectory (ascii "identity") .success
      = .ok onePeerTrust := by decide +kernel
  have hchecked : trustedAddressesAvailable sampleNetwork sampleLocalId onePeerTrust = true := by
    decide
  have hrun := addresses_never_collide onePeerDirectory onePeerTrust
    (.inl ⟨_, _, hload, hchecked⟩) (sampleContact sampleLocalId) [peerRejoins]
  exact hrun.final.1

end Madoka

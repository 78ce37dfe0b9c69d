import Madoka.Network.Kademlia
import Madoka.Network.Serialization

/-!
# Join

The messages by which nodes learn of each other, and what each does to the
table (`network/join.cpp`). The daemon inserts without a ping function.
-/

namespace Madoka

open Octets

variable (x : External)

/-- The contact a join request describes. -/
def requestContact (request : JoinRequest) : NodeContact where
  id := request.nodeId
  publicKey := request.publicKey
  virtualAddress := request.virtualAddress
  endpoint := request.endpoint
  lastSeenMs := request.timestamp
  rttMs := 0
  failedPings := 0

/-- The contact the responder gives for itself: all of it, or only its
identifier. -/
def bootstrapOf (table : KademliaTable) (localContact : Option NodeContact) : NodeContact :=
  localContact.getD (.ofId table.localId)

def processJoinRequest (table : KademliaTable) (request : JoinRequest)
    (localContact : Option NodeContact) : Bool × KademliaTable × JoinResponse :=
  let bootstrap := bootstrapOf table localContact
  if x.sha256 request.publicKey ≠ request.nodeId then
    (false, table,
      { accepted := false, bootstrapContact := bootstrap, bootstrapId := bootstrap.id, peers := [] })
  else
    let table := (kademliaInsert table (requestContact request) none).2
    (true, table,
      { accepted := true
        bootstrapContact := bootstrap
        bootstrapId := bootstrap.id
        peers := kademliaFindClosest table request.nodeId kademliaK })

/-- The loop that inserts every contact but the node itself. -/
def insertOthers (table : KademliaTable) (peers : List NodeContact) : KademliaTable :=
  peers.foldl (fun table peer =>
    if peer.id ≠ table.localId then (kademliaInsert table peer none).2 else table) table

/-- The bootstrap's own contact, with what its response leaves out. -/
def actualBootstrap (response : JoinResponse) (fallback : NodeContact) : NodeContact where
  id := if response.bootstrapContact.id = zero 32 then response.bootstrapId
    else response.bootstrapContact.id
  publicKey := if response.bootstrapContact.publicKey = zero 32 ∧ fallback.publicKey ≠ zero 32
    then fallback.publicKey else response.bootstrapContact.publicKey
  virtualAddress :=
    if response.bootstrapContact.virtualAddress = zero 16 ∧ fallback.virtualAddress ≠ zero 16
    then fallback.virtualAddress else response.bootstrapContact.virtualAddress
  endpoint := if response.bootstrapContact.endpoint = [] ∧ fallback.endpoint ≠ []
    then fallback.endpoint else response.bootstrapContact.endpoint
  lastSeenMs := response.bootstrapContact.lastSeenMs
  rttMs := response.bootstrapContact.rttMs
  failedPings := response.bootstrapContact.failedPings

def handleJoinResponse (table : KademliaTable) (response : JoinResponse)
    (bootstrapFallback : NodeContact) : Bool × KademliaTable :=
  if !response.accepted then (false, table)
  else
    let actualBoot := actualBootstrap response bootstrapFallback
    let table := if actualBoot.id ≠ zero 32 ∧ actualBoot.id ≠ table.localId then
      (kademliaInsert table actualBoot none).2 else table
    (true, insertOthers table response.peers)

def handleFindNode (table : KademliaTable) (request : FindNodeMessage) : NeighborsMessage where
  peers := kademliaFindClosest table request.target kademliaK

def handleNeighbors (table : KademliaTable) (message : NeighborsMessage) : KademliaTable :=
  insertOthers table message.peers

def handleNodeAnnounce (table : KademliaTable) (announce : NodeAnnounceMessage) :
    Bool × KademliaTable × NodeAnnounceAck :=
  if x.sha256 announce.contact.publicKey ≠ announce.contact.id then
    (false, table, { accepted := false, responder := table.localId })
  else
    let table' := if announce.contact.id ≠ table.localId then
      (kademliaInsert table announce.contact none).2 else table
    (true, table', { accepted := true, responder := table.localId })

/-! ## The lookup of the node's own neighbourhood -/

structure LookupState where
  table : KademliaTable
  queried : List NodeId

/-- One query. The answer may depend on how many came before. -/
def lookupQuery (queryFn : Nat → NodeId → NodeId → List NodeContact) (s : LookupState)
    (peer : NodeContact) : LookupState where
  table := insertOthers s.table (queryFn s.queried.length peer.id s.table.localId)
  queried := s.queried ++ [peer.id]

/-- Up to `alpha` of the closest contacts that were not asked yet. -/
def toQuery (alpha : Nat) (s : LookupState) : List NodeContact :=
  ((kademliaFindClosest s.table s.table.localId kademliaK).filter fun c => c.id ∉ s.queried).take
    alpha

def lookupRounds (queryFn : Nat → NodeId → NodeId → List NodeContact) (alpha : Nat) :
    Nat → LookupState → LookupState
  | 0, s => s
  | rounds + 1, s =>
      if toQuery alpha s = [] then s
      else lookupRounds queryFn alpha rounds ((toQuery alpha s).foldl (lookupQuery queryFn) s)

def maxLookupRounds : Nat := 10

def kademliaSelfLookup (table : KademliaTable)
    (queryFn : Option (Nat → NodeId → NodeId → List NodeContact)) (alpha : Nat) : LookupState :=
  match queryFn with
  | none => { table := table, queried := [] }
  | some queryFn =>
      if alpha = 0 then { table := table, queried := [] }
      else lookupRounds queryFn alpha maxLookupRounds { table := table, queried := [] }

/-! ## Dispatch -/

/-- The table after the message and the reply to it; none when the message
is not one of the three that are answered, or is malformed. -/
def dispatchJoinProtocolMessage (table : KademliaTable) (incoming : ControlMessage)
    (localContact : Option NodeContact) (joinAdmitted : Bool) :
    Option (KademliaTable × ControlMessage) :=
  match incoming.type with
  | .joinRequest =>
      if !joinAdmitted then none
      else
        match deserializeJoinRequest incoming.payload with
        | .error _ => none
        | .ok request =>
            let (_, table, response) := processJoinRequest x table request localContact
            some (table, controlMessageCreate .joinResponse incoming.sequenceNumber table.localId
              (serializeJoinResponse response))
  | .findNode =>
      match deserializeFindNode incoming.payload with
      | .error _ => none
      | .ok request =>
          some (table, controlMessageCreate .neighbors incoming.sequenceNumber table.localId
            (serializeNeighbors (handleFindNode table request)))
  | .nodeAnnounce =>
      match deserializeNodeAnnounce incoming.payload with
      | .error _ => none
      | .ok announce =>
          let (_, table, ack) := handleNodeAnnounce x table announce
          some (table, controlMessageCreate .nodeAnnounceAck incoming.sequenceNumber table.localId
            (serializeNodeAnnounceAck ack))
  | _ => none

/-- The three messages that are answered. -/
theorem dispatchJoinProtocolMessage_cases {x : External} {table table' : KademliaTable}
    {incoming reply : ControlMessage} {localContact : Option NodeContact} {joinAdmitted : Bool}
    (h : dispatchJoinProtocolMessage x table incoming localContact joinAdmitted
      = some (table', reply)) :
    (incoming.type = .joinRequest ∧ ∃ request, deserializeJoinRequest incoming.payload = .ok request
      ∧ table' = (processJoinRequest x table request localContact).2.1
      ∧ reply = controlMessageCreate .joinResponse incoming.sequenceNumber table'.localId
        (serializeJoinResponse (processJoinRequest x table request localContact).2.2))
    ∨ (incoming.type = .findNode ∧ ∃ request, deserializeFindNode incoming.payload = .ok request
      ∧ table' = table
      ∧ reply = controlMessageCreate .neighbors incoming.sequenceNumber table.localId
        (serializeNeighbors (handleFindNode table request)))
    ∨ (incoming.type = .nodeAnnounce ∧ ∃ announce,
      deserializeNodeAnnounce incoming.payload = .ok announce
      ∧ table' = (handleNodeAnnounce x table announce).2.1
      ∧ reply = controlMessageCreate .nodeAnnounceAck incoming.sequenceNumber table'.localId
        (serializeNodeAnnounceAck (handleNodeAnnounce x table announce).2.2)) := by
  unfold dispatchJoinProtocolMessage at h
  split at h
  · rename_i htype
    split at h
    · cases h
    · split at h
      · cases h
      · rename_i request hread
        cases h
        exact .inl ⟨htype, request, hread, rfl, rfl⟩
  · rename_i htype
    split at h
    · cases h
    · rename_i request hread
      cases h
      exact .inr (.inl ⟨htype, request, hread, rfl, rfl⟩)
  · rename_i htype
    split at h
    · cases h
    · rename_i announce hread
      cases h
      exact .inr (.inr ⟨htype, announce, hread, rfl, rfl⟩)
  · cases h

/-! ## Tables that differ by inserts -/

/-- The second table comes from the first by inserting contacts that satisfy
`Q`, in some order. -/
def Inserted (Q : NodeContact → Prop) : KademliaTable → KademliaTable → Prop :=
  Relation.ReflTransGen fun table table' =>
    ∃ contact, Q contact ∧ table' = (kademliaInsert table contact none).2

section
variable {Q : NodeContact → Prop} {table table' : KademliaTable}

theorem Inserted.refl (table : KademliaTable) : Inserted Q table table :=
  Relation.ReflTransGen.refl

theorem Inserted.trans {table'' : KademliaTable} (h : Inserted Q table table')
    (h' : Inserted Q table' table'') : Inserted Q table table'' :=
  Relation.ReflTransGen.trans h h'

theorem Inserted.mono {Q' : NodeContact → Prop} (hmono : ∀ c, Q c → Q' c)
    (h : Inserted Q table table') : Inserted Q' table table' := by
  refine Relation.ReflTransGen.mono (fun _ _ hstep => ?_) _ _ h
  obtain ⟨contact, hcontact, htable⟩ := hstep
  exact ⟨contact, hmono contact hcontact, htable⟩

theorem inserted_kademliaInsert {contact : NodeContact} (h : Q contact) :
    Inserted Q table (kademliaInsert table contact none).2 :=
  Relation.ReflTransGen.single ⟨contact, h, rfl⟩

theorem Inserted.localId (h : Inserted Q table table') : table'.localId = table.localId := by
  induction h with
  | refl => rfl
  | tail _ hstep ih =>
      obtain ⟨contact, -, rfl⟩ := hstep
      rw [kademliaInsert_localId, ih]

theorem Inserted.wellFormed (h : Inserted Q table table') (hwell : table.WellFormed) :
    table'.WellFormed := by
  induction h with
  | refl => exact hwell
  | tail _ hstep ih =>
      obtain ⟨contact, -, rfl⟩ := hstep
      exact wellFormed_kademliaInsert ih contact none

/-- A property of contacts that a new contact brings along, also when it
updates an old one, holds of all contacts after the inserts. -/
theorem Inserted.forall {P : NodeContact → Prop} (h : Inserted Q table table')
    (hwell : table.WellFormed) (hnew : ∀ c, Q c → P c)
    (hupdate : ∀ existing c, P existing → Q c → existing.id = c.id → P (existing.updatedBy c))
    (hold : ∀ c ∈ table.contacts, P c) : ∀ c ∈ table'.contacts, P c := by
  induction h with
  | refl => exact hold
  | tail hsteps hstep ih =>
      obtain ⟨contact, hcontact, rfl⟩ := hstep
      refine kademliaInsert_forall (Inserted.wellFormed hsteps hwell) ih fun c hc => ?_
      rcases KademliaTable.mem_entryFor hc with rfl | ⟨existing, hmem, hid, rfl⟩
      · exact hnew c hcontact
      · exact hupdate existing contact (ih existing hmem) hcontact hid

theorem inserted_insertOthers {peers : List NodeContact} (h : ∀ c ∈ peers, Q c) :
    Inserted Q table (insertOthers table peers) := by
  induction peers generalizing table with
  | nil => exact .refl table
  | cons peer rest ih =>
      have hrest : ∀ c ∈ rest, Q c := fun c hc => h c (List.mem_cons_of_mem peer hc)
      show Inserted Q table (insertOthers (if peer.id ≠ table.localId then
        (kademliaInsert table peer none).2 else table) rest)
      split
      · exact (inserted_kademliaInsert (h peer List.mem_cons_self)).trans (ih hrest)
      · exact ih hrest

theorem inserted_handleJoinResponse {response : JoinResponse} {fallback : NodeContact}
    (hboot : (actualBootstrap response fallback).id ≠ zero 32 → Q (actualBootstrap response fallback))
    (hpeers : ∀ c ∈ response.peers, Q c) :
    Inserted Q table (handleJoinResponse table response fallback).2 := by
  unfold handleJoinResponse
  split
  · exact .refl table
  · dsimp only
    split
    · rename_i hid
      exact (inserted_kademliaInsert (hboot hid.1)).trans (inserted_insertOthers hpeers)
    · exact inserted_insertOthers hpeers

theorem inserted_handleNodeAnnounce {x : External} {announce : NodeAnnounceMessage}
    (h : Q announce.contact) : Inserted Q table (handleNodeAnnounce x table announce).2.1 := by
  unfold handleNodeAnnounce
  split
  · exact .refl table
  · dsimp only
    split
    · exact inserted_kademliaInsert h
    · exact .refl table

/-- What every query does to the state, in any number, the rounds do. -/
theorem lookupRounds_of_query {queryFn : Nat → NodeId → NodeId → List NodeContact}
    {R : LookupState → LookupState → Prop} (hrefl : ∀ s, R s s)
    (htrans : ∀ s s' s'', R s s' → R s' s'' → R s s'')
    (hquery : ∀ s peer, R s (lookupQuery queryFn s peer)) (alpha rounds : Nat) (s : LookupState) :
    R s (lookupRounds queryFn alpha rounds s) := by
  have hqueries : ∀ (peers : List NodeContact) (s : LookupState),
      R s (peers.foldl (lookupQuery queryFn) s) := by
    intro peers
    induction peers with
    | nil => exact hrefl
    | cons peer rest ih => exact fun s => htrans _ _ _ (hquery s peer) (ih _)
  induction rounds generalizing s with
  | zero => exact hrefl s
  | succ rounds ih =>
      rw [lookupRounds]
      split
      · exact hrefl s
      · exact htrans _ _ _ (hqueries _ s) (ih _)

theorem inserted_lookupRounds {queryFn : Nat → NodeId → NodeId → List NodeContact}
    (h : ∀ n peer target, ∀ c ∈ queryFn n peer target, Q c) (alpha rounds : Nat)
    (s : LookupState) : Inserted Q s.table (lookupRounds queryFn alpha rounds s).table :=
  lookupRounds_of_query (R := fun s s' => Inserted Q s.table s'.table) (fun s => .refl s.table)
    (fun _ _ _ hfirst hrest => hfirst.trans hrest) (fun _ _ => inserted_insertOthers (h _ _ _))
    alpha rounds s

theorem inserted_kademliaSelfLookup {queryFn : Nat → NodeId → NodeId → List NodeContact}
    (h : ∀ n peer target, ∀ c ∈ queryFn n peer target, Q c) (alpha : Nat) :
    Inserted Q table (kademliaSelfLookup table (some queryFn) alpha).table := by
  rw [kademliaSelfLookup]
  split
  · exact .refl table
  · exact inserted_lookupRounds h alpha maxLookupRounds { table := table, queried := [] }

end

end Madoka

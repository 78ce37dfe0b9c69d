import Madoka.Lib.Run
import Madoka.Network.Join

/-!
# Kademlia Runs

The table of contacts over whole runs: any sequence of the operations of
`network/kademlia.cpp` and `network/join.cpp` that write to it, from an empty
table on.
-/

namespace Madoka

open Octets

def kademliaRemove (table : KademliaTable) (id : NodeId) : Bool × KademliaTable :=
  if h : kademliaBucketIndex table.localId id < kademliaBuckets then
    let bucket := table.buckets ⟨_, h⟩
    match bucket.find? fun c => c.id = id with
    | some _ => (true, table.setBucket ⟨_, h⟩ (bucket.eraseP fun c => c.id = id))
    | none => (false, table)
  else (false, table)

/-- One call of an operation that may write to the table. -/
inductive KademliaCall where
  | insert (contact : NodeContact) (pingFn : Option (NodeContact → Bool))
  | remove (id : NodeId)
  | joinRequest (request : JoinRequest) (localContact : Option NodeContact)
  | joinResponse (response : JoinResponse) (bootstrapFallback : NodeContact)
  | neighbors (message : NeighborsMessage)
  | nodeAnnounce (announce : NodeAnnounceMessage)
  | selfLookup (queryFn : Option (Nat → NodeId → NodeId → List NodeContact)) (alpha : Nat)

/-- The table after the call. -/
def kademliaCall (x : External) (table : KademliaTable) : KademliaCall → KademliaTable
  | .insert contact pingFn => (kademliaInsert table contact pingFn).2
  | .remove id => (kademliaRemove table id).2
  | .joinRequest request localContact => (processJoinRequest x table request localContact).2.1
  | .joinResponse response bootstrapFallback =>
      (handleJoinResponse table response bootstrapFallback).2
  | .neighbors message => handleNeighbors table message
  | .nodeAnnounce announce => (handleNodeAnnounce x table announce).2.1
  | .selfLookup queryFn alpha => (kademliaSelfLookup table queryFn alpha).table

/-- The table after a sequence of calls on the empty one. -/
def kademliaRun (x : External) (localId : NodeId) (calls : List KademliaCall) : KademliaTable :=
  Run.final (kademliaCall x) (kademliaInit localId) calls

/-! ## Each call keeps the invariant -/

/-- A removal drops at most one contact, and only of the given identifier. -/
theorem kademliaRemove_cases (table : KademliaTable) (id : NodeId) :
    (kademliaRemove table id).2 = table
    ∨ ∃ h : kademliaBucketIndex table.localId id < kademliaBuckets, (kademliaRemove table id).2
        = table.setBucket ⟨_, h⟩ ((table.buckets ⟨_, h⟩).eraseP fun c => c.id = id) := by
  rw [kademliaRemove]
  split
  · rename_i hlt
    dsimp only
    split
    · exact .inr ⟨hlt, rfl⟩
    · exact .inl rfl
  · exact .inl rfl

theorem wellFormed_kademliaRemove {table : KademliaTable} (h : table.WellFormed) (id : NodeId) :
    (kademliaRemove table id).2.WellFormed := by
  rcases kademliaRemove_cases table id with hsame | ⟨hlt, hset⟩
  · rw [hsame]
    exact h
  · have hsub : List.Sublist ((table.buckets ⟨_, hlt⟩).eraseP fun c => c.id = id)
        (table.buckets ⟨_, hlt⟩) := List.eraseP_sublist
    rw [hset]
    apply h.setBucket
    · exact fun c hc => h.placed _ c (hsub.subset hc)
    · exact hsub.length_le.trans (h.room _)
    · exact (h.distinct _).sublist (hsub.map _)

theorem kademliaRemove_localId (table : KademliaTable) (id : NodeId) :
    (kademliaRemove table id).2.localId = table.localId := by
  rcases kademliaRemove_cases table id with hsame | ⟨hlt, hset⟩
  · rw [hsame]
  · rw [hset, KademliaTable.setBucket_localId]

/-- Apart from an insert with a ping function and a removal, a call does no
more than insert contacts. -/
theorem kademliaCall_cases (x : External) (table : KademliaTable) (call : KademliaCall) :
    (∃ contact pingFn, call = .insert contact pingFn) ∨ (∃ id, call = .remove id)
      ∨ Inserted (fun _ => True) table (kademliaCall x table call) := by
  cases call with
  | insert contact pingFn => exact .inl ⟨contact, pingFn, rfl⟩
  | remove id => exact .inr (.inl ⟨id, rfl⟩)
  | joinRequest request localContact =>
      right; right
      show Inserted _ table (processJoinRequest x table request localContact).2.1
      rw [processJoinRequest]
      split
      · exact .refl table
      · exact inserted_kademliaInsert trivial
  | joinResponse response bootstrapFallback =>
      exact .inr (.inr (inserted_handleJoinResponse (fun _ => trivial) fun _ _ => trivial))
  | neighbors message => exact .inr (.inr (inserted_insertOthers fun _ _ => trivial))
  | nodeAnnounce announce => exact .inr (.inr (inserted_handleNodeAnnounce trivial))
  | selfLookup queryFn alpha =>
      right; right
      cases queryFn with
      | none => exact .refl table
      | some queryFn => exact inserted_kademliaSelfLookup (fun _ _ _ _ _ => trivial) alpha

theorem wellFormed_kademliaCall {x : External} {table : KademliaTable} (h : table.WellFormed)
    (call : KademliaCall) : (kademliaCall x table call).WellFormed := by
  rcases kademliaCall_cases x table call with ⟨contact, pingFn, rfl⟩ | ⟨id, rfl⟩ | hinserted
  · exact wellFormed_kademliaInsert h contact pingFn
  · exact wellFormed_kademliaRemove h id
  · exact hinserted.wellFormed h

theorem kademliaCall_localId (x : External) (table : KademliaTable) (call : KademliaCall) :
    (kademliaCall x table call).localId = table.localId := by
  rcases kademliaCall_cases x table call with ⟨contact, pingFn, rfl⟩ | ⟨id, rfl⟩ | hinserted
  · exact kademliaInsert_localId table contact pingFn
  · exact kademliaRemove_localId table id
  · exact hinserted.localId

/-! ## Whole runs -/

theorem kademliaRun_throughout (x : External) (localId : NodeId) (calls : List KademliaCall) :
    Run.Throughout (kademliaCall x) (fun table => table.WellFormed ∧ table.localId = localId)
      (kademliaInit localId) calls := by
  apply Run.throughout_of_step
  · rintro table call ⟨hwell, hlocal⟩
    exact ⟨wellFormed_kademliaCall hwell call, (kademliaCall_localId x table call).trans hlocal⟩
  · exact ⟨wellFormed_kademliaInit localId, rfl⟩

theorem wellFormed_kademliaRun (x : External) (localId : NodeId) (calls : List KademliaCall) :
    (kademliaRun x localId calls).WellFormed :=
  (kademliaRun_throughout x localId calls).final.1

theorem kademliaRun_localId (x : External) (localId : NodeId) (calls : List KademliaCall) :
    (kademliaRun x localId calls).localId = localId :=
  (kademliaRun_throughout x localId calls).final.2

/-- Looking up an identifier finds it wherever it is. -/
theorem kademliaFind_isSome_iff {table : KademliaTable} (h : table.WellFormed) (id : NodeId) :
    (kademliaFind table id).isSome = true ↔ ∃ i, ∃ c ∈ table.buckets i, c.id = id := by
  constructor
  · intro hfind
    obtain ⟨c, hc⟩ := Option.isSome_iff_exists.mp hfind
    obtain ⟨hmem, hid⟩ := kademliaFind_some hc
    obtain ⟨i, hi⟩ := KademliaTable.mem_contacts.mp hmem
    exact ⟨i, c, hi, hid⟩
  · rintro ⟨i, c, hc, rfl⟩
    -- the bucket searched is the one the contact is in
    have hplaced := h.placed i c hc
    have hlt : kademliaBucketIndex table.localId c.id < kademliaBuckets := by
      rw [hplaced]
      exact i.isLt
    have hbucket : (⟨_, hlt⟩ : Fin kademliaBuckets) = i := Fin.ext hplaced
    rw [kademliaFind, dif_pos hlt, hbucket, List.find?_isSome]
    exact ⟨c, hc, by simp⟩

/-- After any calls, the contacts are where they belong, none twice and never
the node's own; they are found, and an insert that pings no one keeps every
contact of another identifier. -/
theorem kademliaRun_invariant (x : External) (localId : NodeId) (calls : List KademliaCall) :
    (∀ i, ∀ c ∈ (kademliaRun x localId calls).buckets i, kademliaBucketIndex localId c.id = i)
    ∧ (∀ i, ((kademliaRun x localId calls).buckets i).length ≤ kademliaK)
    ∧ ((kademliaRun x localId calls).contacts.map NodeContact.id).Nodup
    ∧ (∀ c ∈ (kademliaRun x localId calls).contacts, c.id ≠ localId)
    ∧ (∀ id, (kademliaFind (kademliaRun x localId calls) id).isSome = true
        ↔ ∃ i, ∃ c ∈ (kademliaRun x localId calls).buckets i, c.id = id)
    ∧ ∀ contact, ∀ c ∈ (kademliaRun x localId calls).contacts, c.id ≠ contact.id →
        c ∈ (kademliaInsert (kademliaRun x localId calls) contact none).2.contacts := by
  have hwell := wellFormed_kademliaRun x localId calls
  have hlocal := kademliaRun_localId x localId calls
  refine ⟨fun i c hc => ?_, hwell.room, hwell.contacts_nodup, fun c hc => ?_,
    kademliaFind_isSome_iff hwell, fun contact c hc hne => ?_⟩
  · rw [← hlocal]
    exact hwell.placed i c hc
  · rw [← hlocal]
    exact hwell.ne_localId hc
  · exact (mem_kademliaInsert hwell).mpr (.inr ⟨hc, hne⟩)

end Madoka

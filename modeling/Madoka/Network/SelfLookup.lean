import Madoka.Network.ClosestContacts

/-!
# Self Lookup

How far a node's lookup of its own neighbourhood goes
(`kademlia_self_lookup`): how many queries it makes, whom it asks, and when
it stops, whatever the answers are.
-/

namespace Madoka

open Octets

section
variable (queryFn : Nat → NodeId → NodeId → List NodeContact) (alpha : Nat)

/-- The state after a number of rounds, each of which had someone to ask. -/
def FullRounds : Nat → LookupState → LookupState → Prop
  | 0, s, s' => s' = s
  | rounds + 1, s, s' => toQuery alpha s ≠ []
      ∧ FullRounds rounds ((toQuery alpha s).foldl (lookupQuery queryFn) s) s'

/-- Everyone among the closest contacts was asked. -/
def LookupState.Complete (s : LookupState) : Prop :=
  ∀ c ∈ kademliaFindClosest s.table s.table.localId kademliaK, c.id ∈ s.queried

/-- What the rounds keep: no one is asked twice, nor the node itself. -/
structure LookupState.Sound (localId : NodeId) (s : LookupState) : Prop where
  wellFormed : s.table.WellFormed
  localId_eq : s.table.localId = localId
  nodup : s.queried.Nodup
  notLocal : localId ∉ s.queried

variable {queryFn alpha}

/-! ## One query and one round -/

theorem LookupState.Sound.query {localId : NodeId} {s : LookupState} (h : s.Sound localId)
    {peer : NodeContact} (hnew : peer.id ∉ s.queried) (hother : peer.id ≠ localId) :
    (lookupQuery queryFn s peer).Sound localId where
  wellFormed := (inserted_insertOthers (Q := fun _ => True) fun _ _ => trivial).wellFormed
    h.wellFormed
  localId_eq := (inserted_insertOthers (Q := fun _ => True) fun _ _ => trivial).localId.trans
    h.localId_eq
  nodup := by
    rw [lookupQuery, List.nodup_append]
    refine ⟨h.nodup, List.nodup_singleton _, fun a ha b hb hab => hnew ?_⟩
    rw [List.mem_singleton] at hb
    rwa [← hb, ← hab]
  notLocal := by
    rw [lookupQuery, List.mem_append, List.mem_singleton, not_or]
    exact ⟨h.notLocal, hother.symm⟩

/-- A round over peers that are all different and were not asked before. -/
theorem LookupState.Sound.queries {localId : NodeId} {peers : List NodeContact} {s : LookupState}
    (h : s.Sound localId) (hids : (peers.map NodeContact.id).Nodup)
    (hpeers : ∀ peer ∈ peers, peer.id ∉ s.queried ∧ peer.id ≠ localId) :
    (peers.foldl (lookupQuery queryFn) s).Sound localId := by
  induction peers generalizing s with
  | nil => exact h
  | cons peer rest ih =>
      obtain ⟨hfirst, hrest⟩ := List.nodup_cons.mp hids
      obtain ⟨hnew, hother⟩ := hpeers peer List.mem_cons_self
      refine ih (h.query hnew hother) hrest fun p hp => ?_
      obtain ⟨hpnew, hpother⟩ := hpeers p (List.mem_cons_of_mem peer hp)
      refine ⟨?_, hpother⟩
      rw [lookupQuery, List.mem_append, List.mem_singleton, not_or]
      refine ⟨hpnew, fun heq => hfirst ?_⟩
      rw [← heq]
      exact List.mem_map_of_mem hp

theorem length_queried_foldl (peers : List NodeContact) (s : LookupState) :
    (peers.foldl (lookupQuery queryFn) s).queried.length = s.queried.length + peers.length := by
  induction peers generalizing s with
  | nil => rfl
  | cons peer rest ih =>
      have hone : (lookupQuery queryFn s peer).queried.length = s.queried.length + 1 :=
        List.length_append
      rw [List.foldl_cons, ih, hone, List.length_cons]
      omega

/-- Those a round asks are different contacts of the table, not asked before. -/
theorem toQuery_spec (alpha : Nat) {localId : NodeId} {s : LookupState} (h : s.Sound localId) :
    ((toQuery alpha s).map NodeContact.id).Nodup
      ∧ ∀ peer ∈ toQuery alpha s, peer.id ∉ s.queried ∧ peer.id ≠ localId := by
  have hids : ((kademliaFindClosest s.table s.table.localId kademliaK).map NodeContact.id).Nodup := by
    have hclosest := (List.perm_insertionSort
      (fun a b => kademliaDistance a.id s.table.localId ≤ kademliaDistance b.id s.table.localId)
      s.table.contacts).map NodeContact.id
    exact (hclosest.nodup_iff.mpr h.wellFormed.contacts_nodup).sublist
      ((List.take_sublist _ _).map _)
  constructor
  · exact hids.sublist (((List.take_sublist _ _).trans List.filter_sublist).map _)
  · intro peer hpeer
    obtain ⟨hclosest, hnew⟩ := List.mem_filter.mp (List.mem_of_mem_take hpeer)
    refine ⟨by simpa using hnew, ?_⟩
    rw [← h.localId_eq]
    exact h.wellFormed.ne_localId (mem_of_mem_kademliaFindClosest hclosest)

/-- With no one left to ask, all of the closest were asked. -/
theorem complete_of_toQuery_eq_nil (hpos : 0 < alpha) {s : LookupState}
    (h : toQuery alpha s = []) : s.Complete := by
  intro c hc
  by_contra hnew
  have hmem : c ∈ (kademliaFindClosest s.table s.table.localId kademliaK).filter
      fun c => c.id ∉ s.queried := List.mem_filter.mpr ⟨hc, decide_eq_true hnew⟩
  rw [toQuery, List.take_eq_nil_iff] at h
  rcases h with hzero | hnone
  · omega
  · rw [hnone] at hmem
    cases hmem

/-! ## All rounds -/

theorem lookupRounds_spec (queryFn : Nat → NodeId → NodeId → List NodeContact) {localId : NodeId}
    (hpos : 0 < alpha) (rounds : Nat) {s : LookupState} (h : s.Sound localId) :
    (lookupRounds queryFn alpha rounds s).Sound localId
      ∧ (lookupRounds queryFn alpha rounds s).queried.length ≤ s.queried.length + rounds * alpha
      ∧ (FullRounds queryFn alpha rounds s (lookupRounds queryFn alpha rounds s)
        ∨ (lookupRounds queryFn alpha rounds s).Complete) := by
  induction rounds generalizing s with
  | zero => exact ⟨h, by simp [lookupRounds], .inl rfl⟩
  | succ rounds ih =>
      rw [lookupRounds]
      split
      · rename_i hnone
        exact ⟨h, Nat.le_add_right _ _, .inr (complete_of_toQuery_eq_nil hpos hnone)⟩
      · rename_i hsome
        obtain ⟨hids, hpeers⟩ := toQuery_spec alpha h
        obtain ⟨hsound, hcount, hend⟩ := ih (h.queries hids hpeers)
        have hround : (toQuery alpha s).length ≤ alpha := List.length_take_le _ _
        rw [length_queried_foldl] at hcount
        refine ⟨hsound, ?_, hend.imp_left fun hfull => ⟨hsome, hfull⟩⟩
        rw [Nat.succ_mul]
        omega

end

/-- From any table that calls can lead to, and for any answers, a lookup makes
at most ten rounds of queries, asks no one twice and never itself, and stops
short of ten full rounds only when all of the closest contacts were asked. -/
theorem kademliaSelfLookup_spec (x : External) (localId : NodeId) (calls : List KademliaCall)
    (queryFn : Nat → NodeId → NodeId → List NodeContact) (alpha : Nat) (h : 1 ≤ alpha) :
    let start : LookupState := { table := kademliaRun x localId calls, queried := [] }
    let s := kademliaSelfLookup (kademliaRun x localId calls) (some queryFn) alpha
    s.queried.length ≤ 10 * alpha ∧ s.queried.Nodup ∧ localId ∉ s.queried
      ∧ (FullRounds queryFn alpha 10 start s
        ∨ ∀ c ∈ kademliaFindClosest s.table localId kademliaK, c.id ∈ s.queried) := by
  intro start s
  have hstart : start.Sound localId :=
    { wellFormed := wellFormed_kademliaRun x localId calls
      localId_eq := kademliaRun_localId x localId calls
      nodup := List.nodup_nil
      notLocal := List.not_mem_nil }
  obtain ⟨hsound, hcount, hend⟩ := lookupRounds_spec queryFn h maxLookupRounds hstart
  have hs : s = lookupRounds queryFn alpha maxLookupRounds start := if_neg (by omega)
  rw [← hs] at hsound hcount hend
  refine ⟨by simpa [start, maxLookupRounds] using hcount, hsound.nodup, hsound.notLocal,
    hend.imp id fun hall => ?_⟩
  rw [← hsound.localId_eq]
  exact hall

/-- A lookup that hears of a second contact from the first. -/
theorem kademliaSelfLookup_spec_two :
    let calls := [KademliaCall.insert (.ofId ⟨List.replicate 32 1, rfl⟩) none]
    let answers : Nat → NodeId → NodeId → List NodeContact :=
      fun n _ _ => if n = 0 then [.ofId ⟨List.replicate 32 2, rfl⟩] else []
    let start : LookupState := { table := kademliaRun posix (zero 32) calls, queried := [] }
    let s := kademliaSelfLookup (kademliaRun posix (zero 32) calls) (some answers) 3
    s.queried.length ≤ 10 * 3 ∧ s.queried.Nodup ∧ zero 32 ∉ s.queried
      ∧ (FullRounds answers 3 10 start s
        ∨ ∀ c ∈ kademliaFindClosest s.table (zero 32) kademliaK, c.id ∈ s.queried) :=
  kademliaSelfLookup_spec posix (zero 32) _ _ 3 (by decide)

end Madoka

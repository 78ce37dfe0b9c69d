import Madoka.Lib.Recency
import Madoka.Network.KademliaRuns

/-!
# Contact Recency

What the order of a bucket means (`network/kademlia.cpp`): over whole runs,
the contacts of each bucket stand in the order in which they were last heard
of, so that the contact an insert pings, and replaces when it stays silent,
is the one silent for longest.
-/

namespace Madoka

open Octets Recency

/-- One of the two operations that write to a bucket. -/
inductive TableOp where
  | insert (contact : NodeContact) (pingFn : Option (NodeContact → Bool))
  | remove (id : NodeId)

def tableOp (table : KademliaTable) : TableOp → KademliaTable
  | .insert contact pingFn => (kademliaInsert table contact pingFn).2
  | .remove id => (kademliaRemove table id).2

/-- The contact that an insert asks for a sign of life: the oldest one of a
full bucket that does not know the new contact. -/
def pinged (bucket : List NodeContact) (contact : NodeContact) : Option NodeContact :=
  if contact.id ∈ bucket.map NodeContact.id ∨ bucket.length < kademliaK then none
  else bucket.head?

/-- The identifier of the contact that was pinged and has answered. -/
def answered (bucket : List NodeContact) (contact : NodeContact) :
    Option (NodeContact → Bool) → List NodeId
  | none => []
  | some pingFn => (((pinged bucket contact).filter pingFn).map NodeContact.id).toList

/-- The identifiers heard of in an operation: that of the contact an insert is
given, then that of a contact which answers the ping. -/
def heardOf (table : KademliaTable) : TableOp → List NodeId
  | .insert contact pingFn =>
      contact.id :: answered (table.bucketOf contact.id) contact pingFn
  | .remove _ => []

/-- The table, and the log of who has been heard of. -/
structure Watched where
  table : KademliaTable
  log : List NodeId

def watchedOp (s : Watched) (op : TableOp) : Watched where
  table := tableOp s.table op
  log := s.log ++ heardOf s.table op

/-- The empty table, and nobody heard of. -/
def watchedInit (localId : NodeId) : Watched where
  table := kademliaInit localId
  log := []

/-- Each bucket is in the order of the log. -/
structure Watched.InOrder (s : Watched) : Prop where
  wellFormed : s.table.WellFormed
  ordered : ∀ i, Ordered s.log ((s.table.buckets i).map NodeContact.id)

/-- Why an operation drops a contact: it removes it, or it puts another in the
place of the one that, in a full bucket, was silent for longest and does not
answer. -/
def Watched.Drops (s : Watched) (op : TableOp) (c : NodeContact) : Prop :=
  op = .remove c.id
  ∨ ∃ contact pingFn others, op = .insert contact (some pingFn)
    ∧ kademliaFind s.table contact.id = none
    ∧ s.table.bucketOf contact.id = c :: others ∧ others.length + 1 = kademliaK
    ∧ LongestSilent s.log c.id (others.map NodeContact.id) ∧ pingFn c = false
    ∧ contact ∈ (tableOp s.table op).contacts

/-! ## What a call brings -/

/-- What the queried answer of whom they know, in the order of the queries;
`n` queries came before. -/
def returnedNodes (queryFn : Nat → NodeId → NodeId → List NodeContact) (target : NodeId) (n : Nat)
    (queried : List NodeId) : List NodeContact :=
  (queried.zipIdx n).flatMap fun asked => queryFn asked.2 asked.1 target

/-- The contacts that a message or a lookup brings, in their order. A requester
or an announcer whose identifier its key does not give, and a response that does
not accept, bring none. -/
def KademliaCall.brings (x : External) (table : KademliaTable) : KademliaCall → List NodeContact
  | .insert _ _ => []
  | .remove _ => []
  | .joinRequest request _ =>
      if x.sha256 request.publicKey = request.nodeId then [requestContact request] else []
  | .joinResponse response bootstrapFallback =>
      if response.accepted then
        [actualBootstrap response bootstrapFallback].filter (fun boot => boot.id ≠ zero 32)
          ++ response.peers
      else []
  | .neighbors message => message.peers
  | .nodeAnnounce announce =>
      if x.sha256 announce.contact.publicKey = announce.contact.id then [announce.contact] else []
  | .selfLookup none _ => []
  | .selfLookup (some queryFn) alpha =>
      returnedNodes queryFn table.localId 0
        (kademliaSelfLookup table (some queryFn) alpha).queried

/-- Inserts that ping nobody, of all contacts but the node's own. -/
def insertsOf (localId : NodeId) (contacts : List NodeContact) : List TableOp :=
  (contacts.filter fun c => c.id ≠ localId).map fun c => .insert c none

/-- The operations that a call consists of. -/
def KademliaCall.ops (x : External) (table : KademliaTable) : KademliaCall → List TableOp
  | .insert contact pingFn => [.insert contact pingFn]
  | .remove id => [.remove id]
  | call => insertsOf table.localId (call.brings x table)

/-- The operations of a sequence of calls. -/
def callsOps (x : External) : KademliaTable → List KademliaCall → List TableOp
  | _, [] => []
  | table, call :: calls => call.ops x table ++ callsOps x (kademliaCall x table call) calls

/-! ## One bucket -/

theorem answered_of_known {bucket : List NodeContact} {contact : NodeContact}
    (h : contact.id ∈ bucket.map NodeContact.id ∨ bucket.length < kademliaK)
    (pingFn : Option (NodeContact → Bool)) : answered bucket contact pingFn = [] := by
  cases pingFn with
  | none => rfl
  | some pingFn => rw [answered, pinged, if_pos h, Option.filter_none, Option.map_none,
      Option.toList_none]

theorem answered_of_full {oldest : NodeContact} {rest : List NodeContact} {contact : NodeContact}
    (hknown : contact.id ∉ (oldest :: rest).map NodeContact.id)
    (hfull : ¬ (oldest :: rest).length < kademliaK) (pingFn : NodeContact → Bool) :
    answered (oldest :: rest) contact (some pingFn)
      = if pingFn oldest then [oldest.id] else [] := by
  have hneither : ¬ (contact.id ∈ (oldest :: rest).map NodeContact.id
      ∨ (oldest :: rest).length < kademliaK) := fun h => h.elim hknown hfull
  rw [answered, pinged, if_neg hneither, List.head?_cons]
  cases hping : pingFn oldest with
  | false => simp [hping]
  | true => simp [hping]

/-- Whoever answers is in the bucket. -/
theorem answered_subset (bucket : List NodeContact) (contact : NodeContact)
    (pingFn : Option (NodeContact → Bool)) :
    ∀ id ∈ answered bucket contact pingFn, id ∈ bucket.map NodeContact.id := by
  intro id hid
  cases pingFn with
  | none => cases hid
  | some pingFn =>
      rw [answered, Option.mem_toList, Option.map_eq_some_iff] at hid
      obtain ⟨c, hc, rfl⟩ := hid
      have hpinged := Option.eq_some_of_filter_eq_some hc
      rw [pinged] at hpinged
      split at hpinged
      · cases hpinged
      · exact List.mem_map_of_mem (List.mem_of_mem_head? hpinged)

private theorem unknown_of_find_none {bucket : List NodeContact} {id : NodeId}
    (h : (bucket.find? fun c => c.id = id) = none) : id ∉ bucket.map NodeContact.id := by
  intro hmem
  obtain ⟨c, hc, hid⟩ := List.mem_map.mp hmem
  have hne := List.find?_eq_none.mp h c hc
  simp [hid] at hne

private theorem ids_filter (bucket : List NodeContact) (id : NodeId) :
    ((bucket.filter fun c => c.id ≠ id).map NodeContact.id)
      = (bucket.map NodeContact.id).filter fun m => m ≠ id := by
  rw [List.filter_map]
  rfl

/-- An insert keeps the bucket in order. -/
theorem bucketInsert_ordered {log : List NodeId} {bucket : List NodeContact}
    (h : Ordered log (bucket.map NodeContact.id)) (contact : NodeContact)
    (pingFn : Option (NodeContact → Bool)) :
    Ordered (log ++ contact.id :: answered bucket contact pingFn)
      ((bucketInsert bucket contact pingFn).2.map NodeContact.id) := by
  have htouch := h.touch contact.id
  unfold bucketInsert
  cases hfind : bucket.find? fun c => c.id = contact.id with
  | some existing =>
      have hmem := List.mem_of_find?_eq_some hfind
      have hid : existing.id = contact.id := by simpa using List.find?_some hfind
      have hknown : contact.id ∈ bucket.map NodeContact.id := by
        rw [← hid]
        exact List.mem_map_of_mem hmem
      rw [answered_of_known (.inl hknown)]
      dsimp only
      rw [eraseP_eq_filter h.nodup, List.map_append, ids_filter]
      simpa [NodeContact.updatedBy, hid] using htouch
  | none =>
      have hunknown := unknown_of_find_none hfind
      have hstranger := h.stranger hunknown
      dsimp only
      split
      · rename_i hroom
        rw [answered_of_known (.inr hroom), List.map_append]
        rw [← ids_filter, filter_of_find_none hfind] at htouch
        exact htouch
      · rename_i hfull
        split
        · rename_i ping oldest rest
          have hsilent := List.nodup_cons.mp h.nodup
          rw [answered_of_full hunknown hfull]
          split
          · -- the oldest answers: it was heard of after the new contact
            have hlast := hstranger.touch oldest.id
            rw [List.map_cons, List.filter_cons_of_neg (by simp), filter_ne_self hsilent.1,
              List.append_assoc] at hlast
            rw [List.map_append]
            exact hlast
          · have hrest := (h.of_sublist (List.sublist_cons_self _ _)).touch contact.id
            rw [filter_ne_self fun hmem => hunknown (List.mem_cons_of_mem _ hmem)] at hrest
            rw [List.map_append]
            exact hrest
        · rename_i hnone
          have hnobody : answered bucket contact pingFn = [] := by
            cases pingFn with
            | none => rfl
            | some ping =>
                cases bucket with
                | nil => exact answered_of_known (.inr (by simp [kademliaK])) _
                | cons oldest rest => exact absurd rfl (hnone ping oldest rest rfl)
          rw [hnobody]
          exact hstranger

/-! ## The table -/

theorem tableOp_wellFormed {table : KademliaTable} (h : table.WellFormed) (op : TableOp) :
    (tableOp table op).WellFormed := by
  cases op with
  | insert contact pingFn => exact wellFormed_kademliaInsert h contact pingFn
  | remove id => exact wellFormed_kademliaRemove h id

/-- An insert changes the bucket of its contact. -/
theorem insert_buckets_here {table : KademliaTable} {contact : NodeContact}
    {i : Fin kademliaBuckets} (hi : kademliaBucketIndex table.localId contact.id = i)
    (pingFn : Option (NodeContact → Bool)) :
    (tableOp table (.insert contact pingFn)).buckets i
      = (bucketInsert (table.buckets i) contact pingFn).2 := by
  show (kademliaInsert table contact pingFn).2.buckets i = _
  rcases kademliaInsert_cases table contact pingFn with ⟨hself, -⟩ | ⟨hlt, -, hset⟩
  · -- the local identifier itself has no bucket
    rw [hself, kademliaBucketIndex_self] at hi
    exact absurd i.isLt (by rw [← hi]; decide)
  · have hfin : (⟨_, hlt⟩ : Fin kademliaBuckets) = i := Fin.ext hi
    rw [hset, hfin]
    exact Function.update_self _ _ _

theorem insert_buckets_elsewhere {table : KademliaTable} {contact : NodeContact}
    {i : Fin kademliaBuckets} (hi : kademliaBucketIndex table.localId contact.id ≠ i)
    (pingFn : Option (NodeContact → Bool)) :
    (tableOp table (.insert contact pingFn)).buckets i = table.buckets i := by
  show (kademliaInsert table contact pingFn).2.buckets i = _
  rcases kademliaInsert_cases table contact pingFn with ⟨-, hsame⟩ | ⟨hlt, -, hset⟩
  · rw [hsame]
  · rw [hset]
    exact Function.update_of_ne (fun heq => hi (by rw [heq])) _ _

theorem remove_buckets (table : KademliaTable) (id : NodeId) (i : Fin kademliaBuckets) :
    (tableOp table (.remove id)).buckets i = table.buckets i
    ∨ (tableOp table (.remove id)).buckets i
      = (table.buckets i).eraseP fun c => c.id = id := by
  show (kademliaRemove table id).2.buckets i = _ ∨ (kademliaRemove table id).2.buckets i = _
  rcases kademliaRemove_cases table id with hsame | ⟨hlt, hset⟩
  · exact .inl (by rw [hsame])
  · rw [hset]
    by_cases hi : i = ⟨_, hlt⟩
    · subst hi
      exact .inr (Function.update_self _ _ _)
    · exact .inl (Function.update_of_ne hi _ _)

theorem bucketOf_placed {table : KademliaTable} {id : NodeId} {i : Fin kademliaBuckets}
    (h : kademliaBucketIndex table.localId id = i) : table.bucketOf id = table.buckets i := by
  have hlt : kademliaBucketIndex table.localId id < kademliaBuckets := by
    rw [h]
    exact i.isLt
  rw [KademliaTable.bucketOf, dif_pos hlt]
  congr 1
  exact Fin.ext h

/-- The contacts heard of in an insert are all of the bucket inserted into. -/
theorem heardOf_elsewhere {table : KademliaTable} (h : table.WellFormed) {contact : NodeContact}
    {i : Fin kademliaBuckets} (hi : kademliaBucketIndex table.localId contact.id ≠ i)
    (pingFn : Option (NodeContact → Bool)) :
    ∀ id ∈ heardOf table (.insert contact pingFn), id ∉ (table.buckets i).map NodeContact.id := by
  intro id hid hmem
  obtain ⟨c, hc, rfl⟩ := List.mem_map.mp hmem
  have hplaced := h.placed i c hc
  rcases List.mem_cons.mp hid with heq | hanswered
  · exact hi (by rw [← heq, hplaced])
  · obtain ⟨d, hd, hdc⟩ := List.mem_map.mp (answered_subset _ _ _ _ hanswered)
    rw [KademliaTable.bucketOf] at hd
    split at hd
    · rename_i hlt
      have hother := h.placed _ d hd
      rw [hdc, hplaced] at hother
      exact hi hother.symm
    · cases hd

/-- One operation keeps every bucket in order. -/
theorem watchedOp_inOrder {s : Watched} (h : s.InOrder) (op : TableOp) :
    (watchedOp s op).InOrder where
  wellFormed := tableOp_wellFormed h.wellFormed op
  ordered := by
    intro i
    have hbucket := h.ordered i
    show Ordered (s.log ++ heardOf s.table op) (((tableOp s.table op).buckets i).map NodeContact.id)
    cases op with
    | remove id =>
        rw [heardOf, List.append_nil]
        rcases remove_buckets s.table id i with hsame | herase
        · rw [hsame]
          exact hbucket
        · rw [herase]
          exact hbucket.of_sublist (List.eraseP_sublist.map _)
    | insert contact pingFn =>
        by_cases hi : kademliaBucketIndex s.table.localId contact.id = i
        · rw [heardOf, bucketOf_placed hi, insert_buckets_here hi]
          exact bucketInsert_ordered hbucket contact pingFn
        · rw [insert_buckets_elsewhere hi]
          exact hbucket.strangers (heardOf_elsewhere h.wellFormed hi pingFn)

/-- What a bucket loses in an insert is at its front, and silent. -/
theorem bucketInsert_drops {bucket : List NodeContact} (h : (bucket.map NodeContact.id).Nodup)
    {contact c : NodeContact} {pingFn : Option (NodeContact → Bool)} (hc : c ∈ bucket)
    (hgone : c.id ∉ (bucketInsert bucket contact pingFn).2.map NodeContact.id) :
    ∃ ping others, pingFn = some ping ∧ bucket = c :: others
      ∧ ¬ bucket.length < kademliaK ∧ ping c = false
      ∧ (bucket.find? fun d => d.id = contact.id) = none
      ∧ contact ∈ (bucketInsert bucket contact pingFn).2 := by
  unfold bucketInsert at hgone ⊢
  cases hfind : bucket.find? fun d => d.id = contact.id with
  | some existing =>
      rw [hfind] at hgone
      have hid : existing.id = contact.id := by simpa using List.find?_some hfind
      rw [eraseP_eq_filter h, List.map_append, List.mem_append, ids_filter] at hgone
      by_cases heq : c.id = contact.id
      · exact absurd (.inr (by simp [NodeContact.updatedBy, hid, heq])) hgone
      · have hkept : c.id ∈ (bucket.map NodeContact.id).filter fun m => m ≠ contact.id :=
          List.mem_filter.mpr ⟨List.mem_map_of_mem hc, by simpa using heq⟩
        exact absurd (.inl hkept) hgone
  | none =>
      rw [hfind] at hgone
      dsimp only at hgone ⊢
      split at hgone
      · exact absurd (List.mem_map_of_mem (List.mem_append_left _ hc)) hgone
      · rename_i hfull
        split at hgone
        · rename_i ping oldest rest
          split at hgone
          · refine absurd (List.mem_map_of_mem ?_) hgone
            rcases List.mem_cons.mp hc with rfl | hrest
            · exact List.mem_append_right _ List.mem_cons_self
            · exact List.mem_append_left _ hrest
          · rename_i hping
            -- all but the front are kept
            have hfront : c = oldest := by
              rcases List.mem_cons.mp hc with heq | hrest
              · exact heq
              · exact absurd (List.mem_map_of_mem (List.mem_append_left _ hrest)) hgone
            subst hfront
            refine ⟨ping, rest, rfl, rfl, hfull, by simpa using hping, rfl, ?_⟩
            rw [if_neg hfull, if_neg hping]
            exact List.mem_append_right _ List.mem_cons_self
        · exact absurd (List.mem_map_of_mem hc) hgone

/-- What an operation loses, it drops for a reason. -/
theorem watchedOp_drops {s : Watched} (h : s.InOrder) {op : TableOp} {c : NodeContact}
    (hc : c ∈ s.table.contacts)
    (hgone : ∀ d ∈ (watchedOp s op).table.contacts, d.id ≠ c.id) : s.Drops op c := by
  obtain ⟨i, hi⟩ := KademliaTable.mem_contacts.mp hc
  have hbucket : c.id ∉ ((tableOp s.table op).buckets i).map NodeContact.id := by
    intro hmem
    obtain ⟨d, hd, hid⟩ := List.mem_map.mp hmem
    exact hgone d (KademliaTable.mem_contacts.mpr ⟨i, hd⟩) hid
  cases op with
  | remove id =>
      left
      rcases remove_buckets s.table id i with hsame | herase
      · rw [hsame] at hbucket
        exact absurd (List.mem_map_of_mem hi) hbucket
      · rw [herase, eraseP_eq_filter (h.wellFormed.distinct i)] at hbucket
        by_cases heq : c.id = id
        · rw [heq]
        · exact absurd (List.mem_map_of_mem (List.mem_filter.mpr ⟨hi, by simpa using heq⟩)) hbucket
  | insert contact pingFn =>
      right
      by_cases hplace : kademliaBucketIndex s.table.localId contact.id = i
      · rw [insert_buckets_here hplace] at hbucket
        obtain ⟨ping, others, rfl, hfront, hfull, hping, hfind, htaken⟩ :=
          bucketInsert_drops (h.wellFormed.distinct i) hi hbucket
        have hroom := h.wellFormed.room i
        have horder := h.ordered i
        rw [hfront] at horder hfull hroom
        refine ⟨contact, ping, others, rfl, ?_, ?_, ?_, horder.front, hping, ?_⟩
        · rw [kademliaFind_eq, bucketOf_placed hplace]
          exact hfind
        · rw [bucketOf_placed hplace, hfront]
        · rw [List.length_cons] at hfull hroom
          omega
        · rw [← insert_buckets_here hplace] at htaken
          exact KademliaTable.mem_contacts.mpr ⟨i, htaken⟩
      · rw [insert_buckets_elsewhere hplace] at hbucket
        exact absurd (List.mem_map_of_mem hi) hbucket

/-! ## Whole runs -/

theorem watchedInit_inOrder (localId : NodeId) : (watchedInit localId).InOrder where
  wellFormed := wellFormed_kademliaInit localId
  ordered _ := ordered_nil _

theorem watched_throughout (localId : NodeId) (ops : List TableOp) :
    Run.Throughout watchedOp Watched.InOrder (watchedInit localId) ops :=
  Run.throughout_of_step (I := Watched.InOrder) (fun _ op h => watchedOp_inOrder h op)
    (watchedInit_inOrder localId) ops

/-! ## The operations of the calls -/

theorem insertsOf_append (localId : NodeId) (contacts others : List NodeContact) :
    insertsOf localId (contacts ++ others) = insertsOf localId contacts ++ insertsOf localId others := by
  rw [insertsOf, List.filter_append, List.map_append, insertsOf, insertsOf]

/-- The node's own identifier has no bucket, so that leaving its contact out
changes nothing. -/
theorem kademliaInsert_ops (table : KademliaTable) (contact : NodeContact) :
    (kademliaInsert table contact none).2
      = Run.final tableOp table (insertsOf table.localId [contact]) := by
  by_cases hself : contact.id = table.localId
  · have hnone : insertsOf table.localId [contact] = [] := by simp [insertsOf, hself]
    rw [hnone]
    rcases kademliaInsert_cases table contact none with ⟨-, hsame⟩ | ⟨hlt, -, -⟩
    · rw [hsame]
      rfl
    · rw [hself, kademliaBucketIndex_self] at hlt
      exact absurd hlt (by decide)
  · have hone : insertsOf table.localId [contact] = [.insert contact none] := by
      simp [insertsOf, hself]
    rw [hone]
    rfl

theorem insertOthers_ops (table : KademliaTable) (peers : List NodeContact) :
    insertOthers table peers = Run.final tableOp table (insertsOf table.localId peers) := by
  induction peers generalizing table with
  | nil => rfl
  | cons peer rest ih =>
      have hrest : insertOthers table (peer :: rest) = insertOthers (if peer.id ≠ table.localId then
          (kademliaInsert table peer none).2 else table) rest := rfl
      rw [hrest, ih]
      by_cases hself : peer.id = table.localId
      · have hskip : insertsOf table.localId (peer :: rest) = insertsOf table.localId rest := by
          simp [insertsOf, hself]
        rw [if_neg (not_not.mpr hself), hskip]
      · have hfirst : insertsOf table.localId (peer :: rest)
            = .insert peer none :: insertsOf table.localId rest := by
          simp [insertsOf, hself]
        rw [if_pos hself, kademliaInsert_localId, hfirst]
        rfl

theorem returnedNodes_append (queryFn : Nat → NodeId → NodeId → List NodeContact) (target : NodeId)
    (n : Nat) (queried later : List NodeId) :
    returnedNodes queryFn target n (queried ++ later)
      = returnedNodes queryFn target n queried
        ++ returnedNodes queryFn target (n + queried.length) later := by
  rw [returnedNodes, List.zipIdx_append, List.flatMap_append]
  rfl

section
variable {queryFn : Nat → NodeId → NodeId → List NodeContact} {s s' : LookupState}

/-- The lookup has asked some more, and has inserted what they returned. -/
def LookupState.Asks (queryFn : Nat → NodeId → NodeId → List NodeContact) (s s' : LookupState) :
    Prop :=
  ∃ asked, s'.queried = s.queried ++ asked
    ∧ s'.table = Run.final tableOp s.table
      (insertsOf s.table.localId (returnedNodes queryFn s.table.localId s.queried.length asked))
    ∧ s'.table.localId = s.table.localId

theorem LookupState.Asks.refl (s : LookupState) : s.Asks queryFn s :=
  ⟨[], (List.append_nil _).symm, rfl, rfl⟩

theorem LookupState.Asks.trans {s'' : LookupState} (h : s.Asks queryFn s') (h' : s'.Asks queryFn s'') :
    s.Asks queryFn s'' := by
  obtain ⟨asked, hqueried, htable, hlocal⟩ := h
  obtain ⟨later, hqueried', htable', hlocal'⟩ := h'
  refine ⟨asked ++ later, ?_, ?_, hlocal'.trans hlocal⟩
  · rw [hqueried', hqueried, List.append_assoc]
  · rw [htable', hlocal, htable, hqueried, List.length_append, returnedNodes_append,
      insertsOf_append, Run.final_append]

theorem lookupQuery_asks (s : LookupState) (peer : NodeContact) :
    s.Asks queryFn (lookupQuery queryFn s peer) := by
  refine ⟨[peer.id], rfl, ?_, ?_⟩
  · have hone : returnedNodes queryFn s.table.localId s.queried.length [peer.id]
        = queryFn s.queried.length peer.id s.table.localId := List.append_nil _
    rw [hone]
    exact insertOthers_ops ..
  · exact (inserted_insertOthers (Q := fun _ => True) fun _ _ => trivial).localId

theorem lookupRounds_asks (alpha rounds : Nat) (s : LookupState) :
    s.Asks queryFn (lookupRounds queryFn alpha rounds s) :=
  lookupRounds_of_query (R := LookupState.Asks queryFn) .refl
    (fun _ _ _ hfirst hrest => hfirst.trans hrest) lookupQuery_asks alpha rounds s

end

section
variable (x : External) (table : KademliaTable)

theorem processJoinRequest_ops (request : JoinRequest) (localContact : Option NodeContact) :
    (processJoinRequest x table request localContact).2.1
      = Run.final tableOp table
        (insertsOf table.localId ((KademliaCall.joinRequest request localContact).brings x table)) := by
  rw [KademliaCall.brings, processJoinRequest]
  by_cases hid : x.sha256 request.publicKey = request.nodeId
  · rw [if_neg (not_not.mpr hid), if_pos hid]
    exact kademliaInsert_ops table (requestContact request)
  · rw [if_pos hid, if_neg hid]
    rfl

theorem handleJoinResponse_ops (response : JoinResponse) (fallback : NodeContact) :
    (handleJoinResponse table response fallback).2
      = Run.final tableOp table
        (insertsOf table.localId ((KademliaCall.joinResponse response fallback).brings x table)) := by
  rw [KademliaCall.brings, handleJoinResponse]
  cases haccepted : response.accepted with
  | false => rfl
  | true =>
      generalize actualBootstrap response fallback = boot
      simp only [Bool.not_true, Bool.false_eq_true, if_false, if_true]
      rw [insertsOf_append, Run.final_append]
      by_cases hboot : boot.id ≠ zero 32 ∧ boot.id ≠ table.localId
      · have hone : insertsOf table.localId ([boot].filter fun boot => boot.id ≠ zero 32)
            = [.insert boot none] := by simp [insertsOf, hboot.1, hboot.2]
        rw [if_pos hboot, hone, insertOthers_ops, kademliaInsert_localId]
        rfl
      · have hnone : insertsOf table.localId ([boot].filter fun boot => boot.id ≠ zero 32)
            = [] := by
          by_cases hzero : boot.id = zero 32
          · simp [insertsOf, hzero]
          · have hself : boot.id = table.localId := not_not.mp fun hother => hboot ⟨hzero, hother⟩
            simp [insertsOf, hself]
        rw [if_neg hboot, hnone, insertOthers_ops]
        rfl

theorem handleNodeAnnounce_ops (announce : NodeAnnounceMessage) :
    (handleNodeAnnounce x table announce).2.1
      = Run.final tableOp table
        (insertsOf table.localId ((KademliaCall.nodeAnnounce announce).brings x table)) := by
  rw [KademliaCall.brings, handleNodeAnnounce]
  by_cases hid : x.sha256 announce.contact.publicKey = announce.contact.id
  · rw [if_neg (not_not.mpr hid), if_pos hid]
    by_cases hself : announce.contact.id ≠ table.localId
    · rw [← kademliaInsert_ops]
      exact if_pos hself
    · have hnone : insertsOf table.localId [announce.contact] = [] := by
        simp [insertsOf, not_not.mp hself]
      rw [hnone]
      exact if_neg hself
  · rw [if_pos hid, if_neg hid]
    rfl

theorem kademliaSelfLookup_ops (queryFn : Nat → NodeId → NodeId → List NodeContact) (alpha : Nat) :
    (kademliaSelfLookup table (some queryFn) alpha).table
      = Run.final tableOp table (insertsOf table.localId
        ((KademliaCall.selfLookup (some queryFn) alpha).brings x table)) := by
  have hstart : LookupState.Asks queryFn { table := table, queried := [] }
      (kademliaSelfLookup table (some queryFn) alpha) := by
    rw [kademliaSelfLookup]
    split
    · exact .refl _
    · exact lookupRounds_asks alpha maxLookupRounds _
  obtain ⟨asked, hqueried, htable, -⟩ := hstart
  rw [htable, KademliaCall.brings, hqueried]
  rfl

/-- A call does what its operations do. -/
theorem kademliaCall_ops (call : KademliaCall) :
    kademliaCall x table call = Run.final tableOp table (call.ops x table) := by
  cases call with
  | insert contact pingFn => rfl
  | remove id => rfl
  | joinRequest request localContact => exact processJoinRequest_ops x table request localContact
  | joinResponse response fallback => exact handleJoinResponse_ops x table response fallback
  | neighbors message => exact insertOthers_ops table message.peers
  | nodeAnnounce announce => exact handleNodeAnnounce_ops x table announce
  | selfLookup queryFn alpha =>
      cases queryFn with
      | none => rfl
      | some queryFn => exact kademliaSelfLookup_ops x table queryFn alpha

end

theorem kademliaCalls_ops (x : External) (table : KademliaTable) (calls : List KademliaCall) :
    Run.final (kademliaCall x) table calls = Run.final tableOp table (callsOps x table calls) := by
  induction calls generalizing table with
  | nil => rfl
  | cons call calls ih => rw [Run.final_cons, ih, callsOps, Run.final_append, kademliaCall_ops]

theorem watched_table (s : Watched) (ops : List TableOp) :
    (Run.final watchedOp s ops).table = Run.final tableOp s.table ops := by
  induction ops generalizing s with
  | nil => rfl
  | cons op ops ih => exact ih (watchedOp s op)

/-- Over any calls, from the empty table on: the table is that of the calls'
inserts and removals, in every state of which each bucket is in the order in
which its contacts were last heard of, and in which a contact is lost only to a
removal of it or, in a full bucket, as the one silent for longest, when it does
not answer, to the contact put in its place. -/
theorem buckets_by_recency (x : External) (localId : NodeId) (calls : List KademliaCall) :
    kademliaRun x localId calls
        = (Run.final watchedOp (watchedInit localId)
            (callsOps x (kademliaInit localId) calls)).table
      ∧ Run.Throughout watchedOp
          (fun s => ∀ i, Ordered s.log ((s.table.buckets i).map NodeContact.id))
          (watchedInit localId) (callsOps x (kademliaInit localId) calls)
      ∧ Run.Along watchedOp (fun s op => ∀ c ∈ s.table.contacts,
          (∀ d ∈ (watchedOp s op).table.contacts, d.id ≠ c.id) → s.Drops op c)
          (watchedInit localId) (callsOps x (kademliaInit localId) calls) := by
  have hrun := watched_throughout localId (callsOps x (kademliaInit localId) calls)
  refine ⟨?_, hrun.mono fun s h => h.ordered, ?_⟩
  · rw [kademliaRun, kademliaCalls_ops, watched_table]
    rfl
  · exact Run.along_of_throughout (fun s op h c hc hgone => watchedOp_drops h hc hgone) hrun

end Madoka

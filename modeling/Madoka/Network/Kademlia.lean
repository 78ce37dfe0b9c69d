import Madoka.Lib.Nearest
import Madoka.Network.Messages

/-!
# Kademlia

The table of known contacts (`network/kademlia.cpp`): 256 buckets by the
length of the identifier prefix shared with the local node, each of at most
`kademliaK` contacts, the most recently seen last.
-/

namespace Madoka

open Octets

def kademliaBuckets : Nat := 256

structure KademliaTable where
  localId : NodeId
  buckets : Fin kademliaBuckets → List NodeContact

def kademliaInit (localId : NodeId) : KademliaTable where
  localId := localId
  buckets := fun _ => []

def kademliaDistance (a b : NodeId) : ByteArr 32 :=
  ⟨List.zipWith (· ^^^ ·) a.val b.val, by simp [a.property, b.property]⟩

/-- `std::countl_zero` of a byte. -/
def countlZero (v : UInt8) : Nat :=
  if v = 0 then 8 else 7 - v.toNat.log2

/-- The loop over the bytes of the two identifiers, from `byteIdx` on. -/
def bucketIndexFrom : Nat → Bytes → Bytes → Nat
  | byteIdx, a :: as, b :: bs =>
      if a ^^^ b ≠ 0 then byteIdx * 8 + countlZero (a ^^^ b)
      else bucketIndexFrom (byteIdx + 1) as bs
  | _, _, _ => 256

def kademliaBucketIndex (localId remote : NodeId) : Nat :=
  bucketIndexFrom 0 localId.val remote.val

/-- A contact seen again takes the new data but keeps its endpoint when the
new one is empty. -/
def NodeContact.updatedBy (existing contact : NodeContact) : NodeContact where
  id := existing.id
  publicKey := contact.publicKey
  virtualAddress := contact.virtualAddress
  endpoint := if contact.endpoint ≠ [] then contact.endpoint else existing.endpoint
  lastSeenMs := contact.lastSeenMs
  rttMs := contact.rttMs
  failedPings := 0

/-- A full bucket asks whether its oldest contact still answers, if there is
someone to ask. -/
def bucketInsert (bucket : List NodeContact) (contact : NodeContact)
    (pingFn : Option (NodeContact → Bool)) : Bool × List NodeContact :=
  match bucket.find? fun c => c.id = contact.id with
  | some existing =>
      (true, (bucket.eraseP fun c => c.id = contact.id) ++ [existing.updatedBy contact])
  | none =>
      if bucket.length < kademliaK then (true, bucket ++ [contact])
      else
        match pingFn, bucket with
        | some pingFn, oldest :: rest =>
            if pingFn oldest then (false, rest ++ [oldest]) else (true, rest ++ [contact])
        | _, _ => (false, bucket)

def KademliaTable.setBucket (table : KademliaTable) (index : Fin kademliaBuckets)
    (bucket : List NodeContact) : KademliaTable :=
  { table with buckets := Function.update table.buckets index bucket }

def kademliaInsert (table : KademliaTable) (contact : NodeContact)
    (pingFn : Option (NodeContact → Bool)) : Bool × KademliaTable :=
  if contact.id = table.localId then (false, table)
  else if h : kademliaBucketIndex table.localId contact.id < kademliaBuckets then
    let (inserted, bucket) := bucketInsert (table.buckets ⟨_, h⟩) contact pingFn
    (inserted, table.setBucket ⟨_, h⟩ bucket)
  else (false, table)

/-- All contacts, bucket after bucket. -/
def KademliaTable.contacts (table : KademliaTable) : List NodeContact :=
  (List.finRange kademliaBuckets).flatMap table.buckets

def kademliaFindClosest (table : KademliaTable) (target : NodeId) (count : Nat) :
    List NodeContact :=
  Nearest.nearest (fun c => kademliaDistance c.id target) count table.contacts

def kademliaFind (table : KademliaTable) (id : NodeId) : Option NodeContact :=
  if h : kademliaBucketIndex table.localId id < kademliaBuckets then
    (table.buckets ⟨_, h⟩).find? fun c => c.id = id
  else none

/-! ## Bucket indices -/

private theorem bucketIndexFrom_self (byteIdx : Nat) (as : Bytes) :
    bucketIndexFrom byteIdx as as = 256 := by
  induction as generalizing byteIdx with
  | nil => rfl
  | cons a as ih =>
      simp only [bucketIndexFrom, UInt8.xor_self, ne_eq, not_true_eq_false, if_false]
      exact ih _

/-- The local identifier itself belongs to no bucket. -/
theorem kademliaBucketIndex_self (id : NodeId) : kademliaBucketIndex id id = 256 :=
  bucketIndexFrom_self 0 id.val

private theorem countlZero_lt {v : UInt8} (h : v ≠ 0) : countlZero v < 8 := by
  rw [countlZero, if_neg h]
  omega

private theorem bucketIndexFrom_lt (byteIdx : Nat) (as bs : Bytes) (hlen : as.length = bs.length)
    (hne : as ≠ bs) : bucketIndexFrom byteIdx as bs < (byteIdx + as.length) * 8 := by
  induction as generalizing byteIdx bs with
  | nil => exact absurd (List.length_eq_zero_iff.mp hlen.symm).symm hne
  | cons a as ih =>
      cases bs with
      | nil => cases hlen
      | cons b bs =>
          simp only [bucketIndexFrom, List.length_cons]
          split
          · rename_i hab
            have hzero := countlZero_lt hab
            omega
          · rename_i hab
            have heq : a = b := by simpa using hab
            have htail := ih (byteIdx + 1) bs (by simpa using hlen)
              (fun h => hne (by rw [heq, h]))
            omega

/-- Any other identifier has a bucket. -/
theorem kademliaBucketIndex_lt {localId remote : NodeId} (h : remote ≠ localId) :
    kademliaBucketIndex localId remote < kademliaBuckets := by
  have hlt := bucketIndexFrom_lt 0 localId.val remote.val
    (by rw [localId.property, remote.property]) (fun heq => h (Subtype.ext heq.symm))
  rw [localId.property] at hlt
  exact hlt

/-! ## The table's invariant -/

/-- Every contact is in the bucket of its identifier, no bucket is overfull,
and none holds an identifier twice. -/
structure KademliaTable.WellFormed (table : KademliaTable) : Prop where
  placed : ∀ i, ∀ c ∈ table.buckets i, kademliaBucketIndex table.localId c.id = i
  room : ∀ i, (table.buckets i).length ≤ kademliaK
  distinct : ∀ i, ((table.buckets i).map NodeContact.id).Nodup

theorem KademliaTable.mem_contacts {table : KademliaTable} {c : NodeContact} :
    c ∈ table.contacts ↔ ∃ i, c ∈ table.buckets i := by
  simp [KademliaTable.contacts]

theorem kademliaInit_contacts (localId : NodeId) : (kademliaInit localId).contacts = [] := by
  simp [KademliaTable.contacts, kademliaInit]

theorem wellFormed_kademliaInit (localId : NodeId) : (kademliaInit localId).WellFormed where
  placed _ _ h := by cases h
  room _ := Nat.zero_le _
  distinct _ := List.nodup_nil

@[simp] theorem KademliaTable.setBucket_localId (table : KademliaTable)
    (i : Fin kademliaBuckets) (bucket : List NodeContact) :
    (table.setBucket i bucket).localId = table.localId :=
  rfl

theorem KademliaTable.setBucket_self (table : KademliaTable) (i : Fin kademliaBuckets) :
    table.setBucket i (table.buckets i) = table := by
  rw [setBucket, Function.update_eq_self]

/-- The contacts are those of one bucket and those of the others. -/
theorem KademliaTable.contacts_split (table : KademliaTable) (i : Fin kademliaBuckets) :
    ∃ rest, (∀ c ∈ rest, ∃ j, j ≠ i ∧ c ∈ table.buckets j)
      ∧ ∀ bucket, (table.setBucket i bucket).contacts.Perm (bucket ++ rest) := by
  obtain ⟨before, after, hsplit⟩ := List.append_of_mem (List.mem_finRange i)
  have hnodup := List.nodup_finRange kademliaBuckets
  rw [hsplit, List.nodup_middle, List.nodup_cons, List.mem_append, not_or] at hnodup
  obtain ⟨⟨hbefore, hafter⟩, -⟩ := hnodup
  refine ⟨before.flatMap table.buckets ++ after.flatMap table.buckets, ?_, ?_⟩
  · intro c hc
    rw [← List.flatMap_append, List.mem_flatMap] at hc
    obtain ⟨j, hj, hc⟩ := hc
    refine ⟨j, ?_, hc⟩
    rintro rfl
    rcases List.mem_append.mp hj with h | h
    · exact hbefore h
    · exact hafter h
  · intro bucket
    have hother : ∀ js : List (Fin kademliaBuckets), i ∉ js →
        js.flatMap (table.setBucket i bucket).buckets = js.flatMap table.buckets := by
      intro js hjs
      refine List.flatMap_congr fun j hj => ?_
      have hne : j ≠ i := by
        rintro rfl
        exact hjs hj
      exact Function.update_of_ne hne _ _
    have hself : (table.setBucket i bucket).buckets i = bucket := Function.update_self _ _ _
    rw [contacts, hsplit, List.flatMap_append, List.flatMap_cons, hother before hbefore,
      hother after hafter, hself]
    exact List.perm_append_comm_assoc _ _ _

/-- The local identifier never occurs. -/
theorem KademliaTable.WellFormed.ne_localId {table : KademliaTable} (h : table.WellFormed)
    {c : NodeContact} (hc : c ∈ table.contacts) : c.id ≠ table.localId := by
  obtain ⟨i, hi⟩ := mem_contacts.mp hc
  intro heq
  have hplaced := h.placed i c hi
  rw [heq, kademliaBucketIndex_self] at hplaced
  exact absurd i.isLt (by rw [← hplaced]; decide)

/-- No identifier occurs twice in the whole table. -/
theorem KademliaTable.WellFormed.contacts_nodup {table : KademliaTable} (h : table.WellFormed) :
    (table.contacts.map NodeContact.id).Nodup := by
  rw [contacts, List.map_flatMap]
  refine List.nodup_flatMap.mpr ⟨fun i _ => h.distinct i, ?_⟩
  refine (List.nodup_finRange _).imp fun {i j} hne => ?_
  rw [Function.onFun, List.disjoint_left]
  intro id hi hj
  obtain ⟨c, hc, rfl⟩ := List.mem_map.mp hi
  obtain ⟨d, hd, hid⟩ := List.mem_map.mp hj
  have hplaced := h.placed j d hd
  rw [hid, h.placed i c hc] at hplaced
  exact hne (Fin.ext hplaced)

/-! ## Inserting -/

/-- The bucket of an identifier. -/
def KademliaTable.bucketOf (table : KademliaTable) (id : NodeId) : List NodeContact :=
  if h : kademliaBucketIndex table.localId id < kademliaBuckets then table.buckets ⟨_, h⟩ else []

theorem kademliaFind_eq (table : KademliaTable) (id : NodeId) :
    kademliaFind table id = (table.bucketOf id).find? fun c => c.id = id := by
  unfold kademliaFind KademliaTable.bucketOf
  split
  · rfl
  · rfl

/-- The entry an insert without a ping function leaves for the contact's
identifier, if it leaves one. -/
def KademliaTable.entryFor (table : KademliaTable) (contact : NodeContact) : List NodeContact :=
  match kademliaFind table contact.id with
  | some existing => [existing.updatedBy contact]
  | none =>
      if contact.id ≠ table.localId ∧ (table.bucketOf contact.id).length < kademliaK
      then [contact] else []

theorem eraseP_eq_filter {bucket : List NodeContact} {id : NodeId}
    (h : (bucket.map NodeContact.id).Nodup) :
    (bucket.eraseP fun c => c.id = id) = bucket.filter fun c => c.id ≠ id := by
  induction bucket with
  | nil => rfl
  | cons c bucket ih =>
      obtain ⟨hc, hrest⟩ := List.nodup_cons.mp h
      by_cases heq : c.id = id
      · have hkeep : (bucket.filter fun c => c.id ≠ id) = bucket := by
          refine List.filter_eq_self.mpr fun d hd => decide_eq_true fun hid => hc ?_
          rw [heq, ← hid]
          exact List.mem_map_of_mem hd
        rw [List.eraseP_cons_of_pos (by simpa using heq),
          List.filter_cons_of_neg (by simpa using heq), hkeep]
      · rw [List.eraseP_cons_of_neg (by simpa using heq),
          List.filter_cons_of_pos (by simpa using heq), ih hrest]

theorem filter_of_find_none {bucket : List NodeContact} {id : NodeId}
    (h : (bucket.find? fun c => c.id = id) = none) :
    (bucket.filter fun c => c.id ≠ id) = bucket := by
  refine List.filter_eq_self.mpr fun c hc => ?_
  simpa using List.find?_eq_none.mp h c hc

/-- Whatever the ping says, a bucket holds what it held, less what the insert
drops, and at most one entry for the contact. -/
theorem bucketInsert_cases {bucket : List NodeContact}
    (h : (bucket.map NodeContact.id).Nodup) (contact : NodeContact)
    (pingFn : Option (NodeContact → Bool)) :
    ((bucketInsert bucket contact pingFn).2.Perm bucket)
    ∨ ∃ kept entry, (bucketInsert bucket contact pingFn).2.Perm (entry :: kept)
      ∧ kept.Sublist (bucket.filter fun c => c.id ≠ contact.id)
      ∧ (kept.length < bucket.length ∨ bucket.length < kademliaK) ∧ kept.length ≤ bucket.length
      ∧ (entry = contact ∨ ∃ existing ∈ bucket, existing.id = contact.id
          ∧ entry = existing.updatedBy contact) := by
  unfold bucketInsert
  cases hfind : bucket.find? fun c => c.id = contact.id with
  | some existing =>
      right
      have hmem := List.mem_of_find?_eq_some hfind
      have hid : existing.id = contact.id := by simpa using List.find?_some hfind
      have hlen := List.length_eraseP_of_mem (p := fun c => decide (c.id = contact.id)) hmem
        (by simpa using hid)
      have hpos := List.length_pos_of_mem hmem
      refine ⟨_, _, (List.perm_append_singleton _ _), ?_, .inl ?_, ?_, .inr ⟨existing, hmem, hid, rfl⟩⟩
      · rw [eraseP_eq_filter h]
      · omega
      · omega
  | none =>
      have hfilter := filter_of_find_none hfind
      dsimp only
      split
      · rename_i hroom
        right
        refine ⟨bucket, contact, List.perm_append_singleton _ _, ?_, .inr hroom, le_rfl, .inl rfl⟩
        rw [hfilter]
      · split
        · rename_i pingFn oldest rest _
          split
          · exact .inl (List.perm_append_singleton _ _)
          · right
            refine ⟨rest, contact, List.perm_append_singleton _ _, ?_, .inl (Nat.lt_succ_self _),
              Nat.le_succ _, .inl rfl⟩
            rw [hfilter]
            exact List.sublist_cons_self _ _
        · exact .inl (List.Perm.refl _)

theorem KademliaTable.WellFormed.setBucket {table : KademliaTable} (h : table.WellFormed)
    {i : Fin kademliaBuckets} {bucket : List NodeContact}
    (hplaced : ∀ c ∈ bucket, kademliaBucketIndex table.localId c.id = i)
    (hroom : bucket.length ≤ kademliaK) (hdistinct : (bucket.map NodeContact.id).Nodup) :
    (table.setBucket i bucket).WellFormed := by
  have hself : (table.setBucket i bucket).buckets i = bucket := Function.update_self _ _ _
  have hother : ∀ j, j ≠ i → (table.setBucket i bucket).buckets j = table.buckets j :=
    fun j hj => Function.update_of_ne hj _ _
  constructor <;> intro j <;> by_cases hj : j = i
  · subst hj
    rw [hself]
    exact hplaced
  · rw [hother j hj]
    exact h.placed j
  · subst hj
    rw [hself]
    exact hroom
  · rw [hother j hj]
    exact h.room j
  · subst hj
    rw [hself]
    exact hdistinct
  · rw [hother j hj]
    exact h.distinct j

/-- An insert changes nothing, or puts the contact into its bucket. -/
theorem kademliaInsert_cases (table : KademliaTable) (contact : NodeContact)
    (pingFn : Option (NodeContact → Bool)) :
    (contact.id = table.localId ∧ (kademliaInsert table contact pingFn).2 = table)
    ∨ ∃ h : kademliaBucketIndex table.localId contact.id < kademliaBuckets,
      contact.id ≠ table.localId ∧ (kademliaInsert table contact pingFn).2
        = table.setBucket ⟨_, h⟩ (bucketInsert (table.buckets ⟨_, h⟩) contact pingFn).2 := by
  unfold kademliaInsert
  split
  · rename_i hlocal
    exact .inl ⟨hlocal, rfl⟩
  · rename_i hlocal
    have hlt := kademliaBucketIndex_lt hlocal
    rw [dif_pos hlt]
    exact .inr ⟨hlt, hlocal, rfl⟩

@[simp] theorem kademliaInsert_localId (table : KademliaTable) (contact : NodeContact)
    (pingFn : Option (NodeContact → Bool)) :
    (kademliaInsert table contact pingFn).2.localId = table.localId := by
  rcases kademliaInsert_cases table contact pingFn with ⟨-, h⟩ | ⟨hlt, -, h⟩
  · rw [h]
  · rw [h, KademliaTable.setBucket_localId]

theorem wellFormed_kademliaInsert {table : KademliaTable} (h : table.WellFormed)
    (contact : NodeContact) (pingFn : Option (NodeContact → Bool)) :
    (kademliaInsert table contact pingFn).2.WellFormed := by
  rcases kademliaInsert_cases table contact pingFn with ⟨-, hsame⟩ | ⟨hlt, -, hset⟩
  · rw [hsame]
    exact h
  · rw [hset]
    have hdistinct := h.distinct ⟨_, hlt⟩
    rcases bucketInsert_cases hdistinct contact pingFn with
      hperm | ⟨kept, entry, hperm, hsub, hlen, hle, hentry⟩
    · refine h.setBucket (fun c hc => h.placed _ c (hperm.mem_iff.mp hc)) ?_ ?_
      · rw [hperm.length_eq]
        exact h.room _
      · exact (hperm.map _).nodup_iff.mpr hdistinct
    · have hid : entry.id = contact.id := by
        rcases hentry with rfl | ⟨existing, -, hid, rfl⟩
        · rfl
        · exact hid
      refine h.setBucket (fun c hc => ?_) ?_ ?_
      · rcases List.mem_cons.mp (hperm.mem_iff.mp hc) with rfl | hc
        · rw [hid]
        · exact h.placed _ c (List.mem_of_mem_filter (hsub.subset hc))
      · have hroom := h.room ⟨_, hlt⟩
        rw [hperm.length_eq, List.length_cons]
        omega
      · rw [(hperm.map _).nodup_iff, List.map_cons, List.nodup_cons]
        refine ⟨fun hmem => ?_, (hdistinct.sublist (List.filter_sublist.map _)).sublist
          (hsub.map _)⟩
        obtain ⟨c, hc, hcid⟩ := List.mem_map.mp hmem
        have hne := List.of_mem_filter (hsub.subset hc)
        rw [hcid, hid] at hne
        simp at hne

/-- Without a ping function an insert replaces or adds the contact's own
entry, and keeps every other. -/
theorem kademliaInsert_contacts {table : KademliaTable} (h : table.WellFormed)
    (contact : NodeContact) :
    (kademliaInsert table contact none).2.contacts.Perm
      (table.entryFor contact ++ table.contacts.filter fun c => c.id ≠ contact.id) := by
  rcases kademliaInsert_cases table contact none with ⟨hlocal, hsame⟩ | ⟨hlt, hlocal, hset⟩
  · have hentry : table.entryFor contact = [] := by
      have hindex : ¬ kademliaBucketIndex table.localId table.localId < kademliaBuckets := by
        rw [kademliaBucketIndex_self]
        decide
      rw [KademliaTable.entryFor, hlocal, kademliaFind, dif_neg hindex]
      exact if_neg fun hne => hne.1 rfl
    have hkeep : (table.contacts.filter fun c => c.id ≠ contact.id) = table.contacts := by
      refine List.filter_eq_self.mpr fun c hc => decide_eq_true ?_
      rw [hlocal]
      exact h.ne_localId hc
    rw [hsame, hentry, hkeep, List.nil_append]
  · obtain ⟨rest, hrest, hsplit⟩ := table.contacts_split ⟨_, hlt⟩
    have hcontacts := hsplit (table.buckets ⟨_, hlt⟩)
    rw [table.setBucket_self] at hcontacts
    have hother : (rest.filter fun c => c.id ≠ contact.id) = rest := by
      refine List.filter_eq_self.mpr fun c hc => decide_eq_true fun hid => ?_
      obtain ⟨j, hj, hc⟩ := hrest c hc
      exact hj (Fin.ext (by rw [← h.placed j c hc, hid]))
    have hbucket : table.bucketOf contact.id = table.buckets ⟨_, hlt⟩ := dif_pos hlt
    have hfilter := hcontacts.filter fun c => c.id ≠ contact.id
    rw [List.filter_append, hother] at hfilter
    have hinsert : (bucketInsert (table.buckets ⟨_, hlt⟩) contact none).2.Perm
        (table.entryFor contact
          ++ (table.buckets ⟨_, hlt⟩).filter fun c => c.id ≠ contact.id) := by
      unfold bucketInsert KademliaTable.entryFor
      rw [kademliaFind_eq, hbucket]
      cases hfind : (table.buckets ⟨_, hlt⟩).find? fun c => c.id = contact.id with
      | some existing =>
          dsimp only
          rw [eraseP_eq_filter (h.distinct _)]
          exact List.perm_append_comm
      | none =>
          dsimp only
          rw [filter_of_find_none hfind]
          by_cases hroom : (table.buckets ⟨_, hlt⟩).length < kademliaK
          · rw [if_pos hroom, if_pos ⟨hlocal, hroom⟩]
            exact List.perm_append_comm
          · rw [if_neg hroom, if_neg fun hboth => hroom hboth.2]
            exact List.Perm.refl _
    rw [hset]
    refine (hsplit _).trans ((hinsert.append_right rest).trans ?_)
    rw [List.append_assoc]
    exact hfilter.symm.append_left _

theorem mem_kademliaInsert {table : KademliaTable} (h : table.WellFormed) {contact c : NodeContact} :
    c ∈ (kademliaInsert table contact none).2.contacts ↔
      c ∈ table.entryFor contact ∨ c ∈ table.contacts ∧ c.id ≠ contact.id := by
  rw [(kademliaInsert_contacts h contact).mem_iff, List.mem_append, List.mem_filter,
    decide_eq_true_eq]

theorem kademliaFind_some {table : KademliaTable} {id : NodeId} {c : NodeContact}
    (h : kademliaFind table id = some c) : c ∈ table.contacts ∧ c.id = id := by
  unfold kademliaFind at h
  split at h
  · exact ⟨KademliaTable.mem_contacts.mpr ⟨_, List.mem_of_find?_eq_some h⟩,
      by simpa using List.find?_some h⟩
  · cases h

theorem KademliaTable.mem_entryFor {table : KademliaTable} {contact c : NodeContact}
    (h : c ∈ table.entryFor contact) :
    c = contact ∨ ∃ existing ∈ table.contacts, existing.id = contact.id
      ∧ c = existing.updatedBy contact := by
  unfold entryFor at h
  split at h
  · rename_i existing hfind
    obtain ⟨hmem, hid⟩ := kademliaFind_some hfind
    exact .inr ⟨existing, hmem, hid, List.mem_singleton.mp h⟩
  · split at h
    · exact .inl (List.mem_singleton.mp h)
    · cases h

/-- An insert leaves only old contacts, the new one, or an old one updated. -/
theorem kademliaInsert_forall {table : KademliaTable} (h : table.WellFormed) {contact : NodeContact}
    {P : NodeContact → Prop} (hold : ∀ c ∈ table.contacts, P c)
    (hentry : ∀ c ∈ table.entryFor contact, P c) :
    ∀ c ∈ (kademliaInsert table contact none).2.contacts, P c := by
  intro c hc
  rcases (mem_kademliaInsert h).mp hc with hc | ⟨hc, -⟩
  · exact hentry c hc
  · exact hold c hc

/-! ## The closest contacts -/

theorem kademliaDistance_left_inj {a b target : NodeId}
    (h : kademliaDistance a target = kademliaDistance b target) : a = b := by
  have key : ∀ as bs ts : Bytes, as.length = ts.length → bs.length = ts.length →
      List.zipWith (· ^^^ ·) as ts = List.zipWith (· ^^^ ·) bs ts → as = bs := by
    intro as
    induction as with
    | nil =>
        intro bs ts has hbs _
        rw [List.length_nil] at has
        exact (List.length_eq_zero_iff.mp (hbs.trans has.symm)).symm
    | cons a as ih =>
        intro bs ts has hbs heq
        cases ts with
        | nil => cases has
        | cons t ts =>
            cases bs with
            | nil => cases hbs
            | cons b bs =>
                rw [List.zipWith_cons_cons, List.zipWith_cons_cons, List.cons.injEq] at heq
                rw [ih bs ts (by simpa using has) (by simpa using hbs) heq.2,
                  (UInt8.xor_left_inj t).mp heq.1]
  refine Subtype.ext (key a.val b.val target.val ?_ ?_ (congrArg Subtype.val h))
  · rw [a.property, target.property]
  · rw [b.property, target.property]

/-- The contacts that fewer than `count` others of the table are nearer to
the target than. -/
def KademliaTable.closestTo (contacts : List NodeContact) (target : NodeId) (count : Nat) :
    List NodeContact :=
  contacts.filter fun c => Nearest.rank (fun c => kademliaDistance c.id target) contacts c < count

theorem KademliaTable.closestTo_perm {xs ys : List NodeContact} (h : xs.Perm ys) (target : NodeId)
    (count : Nat) : (closestTo xs target count).Perm (closestTo ys target count) := by
  refine (h.filter _).trans (List.Perm.of_eq (List.filter_congr fun c _ => ?_))
  rw [Nearest.rank_perm h]

theorem kademliaFindClosest_perm {table : KademliaTable} (h : table.WellFormed) (target : NodeId)
    (count : Nat) :
    (kademliaFindClosest table target count).Perm
      (KademliaTable.closestTo table.contacts target count) := by
  refine Nearest.nearest_perm_filter ?_ count
  have hids := h.contacts_nodup
  rw [List.Nodup, List.pairwise_map] at hids ⊢
  exact hids.imp fun hne heq => hne (kademliaDistance_left_inj heq)

theorem mem_of_mem_kademliaFindClosest {table : KademliaTable} {target : NodeId} {count : Nat}
    {c : NodeContact} (h : c ∈ kademliaFindClosest table target count) : c ∈ table.contacts :=
  Nearest.mem_of_mem_nearest h

theorem length_kademliaFindClosest_le (table : KademliaTable) (target : NodeId) (count : Nat) :
    (kademliaFindClosest table target count).length ≤ count :=
  Nearest.length_nearest_le _ _

end Madoka

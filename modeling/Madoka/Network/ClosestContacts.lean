import Madoka.Crypto.Sha256
import Madoka.Lib.Sorting
import Madoka.Network.KademliaRuns

/-!
# Closest Contacts

The query for the contacts closest to an identifier
(`kademlia_find_closest`), with its comparator and its two ways of sorting:
whatever a correct sort does, the answer is the nearest contacts of the table.
-/

namespace Madoka

open Octets Sorting

/-- The loop of the comparator over the bytes of two identifiers and the
target. -/
def distanceLess : Bytes → Bytes → Bytes → Bool
  | a :: as, b :: bs, t :: ts =>
      if a ^^^ t ≠ b ^^^ t then a ^^^ t < b ^^^ t else distanceLess as bs ts
  | _, _, _ => false

def distanceCmp (target : NodeId) (a b : NodeContact) : Bool :=
  distanceLess a.id.val b.id.val target.val

/-- `kademlia_find_closest` over the given sorting functions. -/
def kademliaFindClosestWith (std : Sorts NodeContact) (table : KademliaTable) (target : NodeId)
    (count : Nat) : List NodeContact :=
  let all := table.contacts
  if all.length > count then (std.partialSort (distanceCmp target) count all).take count
  else std.sort (distanceCmp target) all

/-- The distance as the 256-bit number its bytes spell. -/
def distanceTo (target : NodeId) (c : NodeContact) : Nat :=
  ofBe (kademliaDistance c.id target).val

/-! ## The comparator compares distances -/

theorem distanceLess_iff {as bs ts : Bytes} (ha : as.length = ts.length)
    (hb : bs.length = ts.length) : distanceLess as bs ts = true ↔
      ofBe (List.zipWith (· ^^^ ·) as ts) < ofBe (List.zipWith (· ^^^ ·) bs ts) := by
  induction ts generalizing as bs with
  | nil =>
      rw [List.length_nil, List.length_eq_zero_iff] at ha hb
      simp [ha, hb, distanceLess]
  | cons t ts ih =>
      match as, bs, ha, hb with
      | a :: as, b :: bs, ha, hb =>
          simp only [List.length_cons, Nat.add_right_cancel_iff] at ha hb
          have hsize : (List.zipWith (· ^^^ ·) as ts).length
              = (List.zipWith (· ^^^ ·) bs ts).length := by
            rw [List.length_zipWith, List.length_zipWith, ha, hb]
          rw [List.zipWith_cons_cons, List.zipWith_cons_cons, ofBe_cons_lt_iff hsize, ← ih ha hb]
          simp only [distanceLess]
          split
          · rename_i hne
            simp [hne]
          · rename_i heq
            rw [not_not] at heq
            simp [heq]

theorem distanceCmp_iff (target : NodeId) (a b : NodeContact) :
    distanceCmp target a b = true ↔ distanceTo target a < distanceTo target b := by
  have hlen : ∀ id : NodeId, id.val.length = target.val.length := fun id => by
    rw [id.property, target.property]
  exact distanceLess_iff (hlen a.id) (hlen b.id)

theorem distanceTo_inj {target : NodeId} {a b : NodeContact}
    (h : distanceTo target a = distanceTo target b) : a.id = b.id := by
  have hbytes : kademliaDistance a.id target = kademliaDistance b.id target := by
    apply Subtype.ext
    rw [← beBytes_ofBe (kademliaDistance a.id target).property,
      ← beBytes_ofBe (kademliaDistance b.id target).property]
    exact congrArg (beBytes 32) h
  exact kademliaDistance_left_inj hbytes

theorem distanceTo_self {target : NodeId} {c : NodeContact} (h : c.id = target) :
    distanceTo target c = 0 := by
  have hzero : ∀ bs : Bytes, ofBe (List.zipWith (· ^^^ ·) bs bs) = 0 := by
    intro bs
    induction bs with
    | nil => rfl
    | cons b bs ih => rw [List.zipWith_cons_cons, ofBe_cons, ih, UInt8.xor_self]; simp
  show ofBe (List.zipWith (· ^^^ ·) c.id.val target.val) = 0
  rw [h, hzero]

/-! ## The answer -/

section
variable {table : KademliaTable}

theorem distances_nodup (h : table.WellFormed) (target : NodeId) :
    (table.contacts.map (distanceTo target)).Nodup := by
  have hids := h.contacts_nodup
  rw [List.Nodup, List.pairwise_map] at hids ⊢
  exact hids.imp fun hne heq => hne (distanceTo_inj heq)

/-- Both branches answer with the nearest contacts. -/
theorem kademliaFindClosestWith_eq_nearest (h : table.WellFormed) (std : Sorts NodeContact)
    (target : NodeId) (count : Nat) : kademliaFindClosestWith std table target count
      = Nearest.nearest (distanceTo target) count table.contacts := by
  have hcmp := distanceCmp_iff target
  have hkeys := distances_nodup h target
  rw [kademliaFindClosestWith]
  split
  · rename_i hmore
    exact std.take_partialSort hcmp hkeys hmore.le
  · rename_i hall
    rw [← std.take_sort hcmp hkeys count]
    refine (List.take_of_length_le ?_).symm
    rw [(std.sort_perm _ _ (strictWeak_of_key hcmp)).length_eq]
    exact not_lt.mp hall

/-- The answer does not depend on how the sorting is done. -/
theorem kademliaFindClosest_eq_with (h : table.WellFormed) (std : Sorts NodeContact)
    (target : NodeId) (count : Nat) :
    kademliaFindClosest table target count = kademliaFindClosestWith std table target count := by
  rw [kademliaFindClosestWith_eq_nearest h]
  refine Nearest.nearest_congr (fun a b => ?_) count table.contacts
  have hlen : ∀ c : NodeContact, (kademliaDistance c.id target).val.length = 32 :=
    fun c => (kademliaDistance c.id target).property
  rw [distanceTo, distanceTo, ← not_lt, ← not_lt,
    ofBe_lt_ofBe_iff ((hlen b).trans (hlen a).symm)]
  rfl

end

/-- After any calls, the answer to a query is as many contacts as there are
or as were asked for, in the order of their distances, the target first, and
nearer than all that are left out. -/
theorem kademliaFindClosestWith_nearest (x : External) (std : Sorts NodeContact) (localId : NodeId)
    (calls : List KademliaCall) (target : NodeId) (count : Nat) :
    let table := kademliaRun x localId calls
    let closest := kademliaFindClosestWith std table target count
    closest.length = min count table.contacts.length
      ∧ (∀ c ∈ closest, c ∈ table.contacts)
      ∧ (closest.map NodeContact.id).Nodup
      ∧ closest.Pairwise (fun a b => distanceTo target a < distanceTo target b)
      ∧ (∀ c ∈ table.contacts, c ∉ closest → ∀ near ∈ closest,
          distanceTo target near < distanceTo target c)
      ∧ ∀ c ∈ table.contacts, c.id = target → 0 < count → closest.head? = some c := by
  intro table closest
  have hwell := wellFormed_kademliaRun x localId calls
  have hkeys := distances_nodup hwell target
  have hclosest : closest = Nearest.nearest (distanceTo target) count table.contacts :=
    kademliaFindClosestWith_eq_nearest hwell std target count
  have hsorted := Nearest.sorted_nearest hkeys count
  rw [hclosest]
  refine ⟨Nearest.length_nearest _ _, fun c => Nearest.mem_of_mem_nearest, ?_, hsorted,
    fun c hc hout near hnear => Nearest.lt_of_notMem_nearest hkeys hnear hc hout,
    fun c hc hid hcount => Nearest.head?_nearest hkeys hcount hc fun b => ?_⟩
  · rw [List.Nodup, List.pairwise_map]
    refine hsorted.imp fun {a b} hlt hid => ?_
    rw [distanceTo, distanceTo, hid] at hlt
    exact lt_irrefl _ hlt
  · rw [distanceTo_self hid]
    exact Nat.zero_le _

/-- Of two contacts, sorted by insertion, the one asked for comes first. -/
theorem kademliaFindClosestWith_nearest_byInsertion :
    (kademliaFindClosestWith (Sorts.byInsertion NodeContact)
        (kademliaRun posix (zero 32) [.insert (.ofId (repeated 32 1)) none,
          .insert (.ofId (repeated 32 2)) none]) (repeated 32 2) 1).head?
      = some (.ofId (repeated 32 2)) := by
  obtain ⟨-, -, -, -, -, hhead⟩ := kademliaFindClosestWith_nearest posix
    (Sorts.byInsertion NodeContact) (zero 32) [.insert (.ofId (repeated 32 1)) none,
      .insert (.ofId (repeated 32 2)) none] (repeated 32 2) 1
  exact hhead (.ofId (repeated 32 2)) (by decide) rfl (by decide)

end Madoka

import Madoka.Lib.LowerBound

/-!
# Nearest

The `k` elements of a list with the smallest keys, as sorting and cutting
gives them, and what they are without the sorting: the elements that fewer
than `k` others come before.
-/

namespace Nearest

open LowerBound

variable {α κ : Type} [LinearOrder κ] (key : α → κ)

/-- Sort by the key and keep the first `k`. -/
def nearest (k : Nat) (xs : List α) : List α :=
  (xs.insertionSort fun a b => key a ≤ key b).take k

/-- The number of elements whose key is below that of `a`. -/
def rank (xs : List α) (a : α) : Nat :=
  xs.countP fun b => key b < key a

variable {key}

theorem rank_perm {xs ys : List α} (h : xs.Perm ys) (a : α) : rank key xs a = rank key ys a :=
  h.countP_eq _

/-- In a strictly sorted list the first `k` are those of rank below `k`. -/
theorem take_eq_filter {xs : List α} (hs : Sorted key xs) (k : Nat) :
    xs.take k = xs.filter fun a => rank key xs a < k := by
  induction xs generalizing k with
  | nil => simp
  | cons x xs ih =>
      obtain ⟨hx, hxs⟩ := List.pairwise_cons.mp hs
      have hhead : rank key (x :: xs) x = 0 := by
        refine List.countP_eq_zero.mpr fun b hb => ?_
        rcases List.mem_cons.mp hb with rfl | hb
        · simp
        · simpa using (hx b hb).le
      have htail : ∀ a ∈ xs, rank key (x :: xs) a = rank key xs a + 1 := by
        intro a ha
        show (x :: xs).countP _ = _
        rw [List.countP_cons_of_pos (by simpa using hx a ha)]
        rfl
      cases k with
      | zero => simp
      | succ k =>
          rw [List.take_succ_cons, ih hxs k, List.filter_cons_of_pos (by simp [hhead])]
          congr 1
          refine List.filter_congr fun a ha => ?_
          rw [htail a ha]
          simp

/-- Without repeated keys, the nearest are the elements that fewer than `k`
others come before. -/
theorem nearest_perm_filter {xs : List α} (h : (xs.map key).Nodup) (k : Nat) :
    (nearest key k xs).Perm (xs.filter fun a => rank key xs a < k) := by
  have hperm := List.perm_insertionSort (fun a b => key a ≤ key b) xs
  rw [nearest, take_eq_filter (sorted_insertionSort h) k]
  refine (hperm.filter _).trans (List.Perm.of_eq (List.filter_congr fun a _ => ?_))
  rw [rank_perm hperm]

theorem mem_of_mem_nearest {k : Nat} {xs : List α} {a : α} (h : a ∈ nearest key k xs) : a ∈ xs :=
  (List.perm_insertionSort _ xs).mem_iff.mp (List.mem_of_mem_take h)

theorem length_nearest_le (k : Nat) (xs : List α) : (nearest key k xs).length ≤ k :=
  List.length_take_le _ _

theorem length_nearest (k : Nat) (xs : List α) : (nearest key k xs).length = min k xs.length := by
  rw [nearest, List.length_take, List.length_insertionSort]

theorem sorted_nearest {xs : List α} (h : (xs.map key).Nodup) (k : Nat) :
    Sorted key (nearest key k xs) :=
  (sorted_insertionSort h).sublist (List.take_sublist _ _)

/-- What is left out is farther than everything that is not. -/
theorem lt_of_notMem_nearest {xs : List α} (h : (xs.map key).Nodup) {k : Nat} {a b : α}
    (ha : a ∈ nearest key k xs) (hb : b ∈ xs) (hout : b ∉ nearest key k xs) : key a < key b := by
  have hsorted := sorted_insertionSort h
  have hmem := (List.perm_insertionSort (fun a b => key a ≤ key b) xs).mem_iff.mpr hb
  rw [← List.take_append_drop k (xs.insertionSort _)] at hsorted hmem
  rcases List.mem_append.mp hmem with htake | hdrop
  · exact absurd htake hout
  · exact (List.pairwise_append.mp hsorted).2.2 a ha b hdrop

/-- The element of the smallest key comes first. -/
theorem head?_nearest {xs : List α} (h : (xs.map key).Nodup) {k : Nat} (hk : 0 < k) {a : α}
    (ha : a ∈ xs) (hleast : ∀ b, key a ≤ key b) : (nearest key k xs).head? = some a := by
  have hlength : (nearest key k xs).length = min k xs.length := length_nearest k xs
  have hpos := List.length_pos_of_mem ha
  have hsorted := sorted_nearest h k
  have hout := fun b (hb : b ∈ nearest key k xs) => lt_of_notMem_nearest h hb ha
  revert hlength hsorted hout
  cases nearest key k xs with
  | nil =>
      intro hlength
      rw [List.length_nil] at hlength
      omega
  | cons b rest =>
      intro _ hsorted hout
      rw [List.head?_cons, Option.some_inj]
      by_contra hne
      have hmem : a ∈ b :: rest := by
        by_contra hnot
        exact absurd (hout b List.mem_cons_self hnot) (not_lt.mpr (hleast b))
      rcases List.mem_cons.mp hmem with rfl | hrest
      · exact hne rfl
      · exact absurd ((List.pairwise_cons.mp hsorted).1 a hrest) (not_lt.mpr (hleast b))

/-- Only the order of the keys matters. -/
theorem nearest_congr {κ' : Type} [LinearOrder κ'] {key' : α → κ'}
    (h : ∀ a b, key a ≤ key b ↔ key' a ≤ key' b) (k : Nat) (xs : List α) :
    nearest key k xs = nearest key' k xs := by
  simp only [nearest, h]

end Nearest

import Madoka.Lib.Nearest

/-!
# Sorting

What a caller of `std::sort` and `std::partial_sort` may rely on, for any
comparator that is a strict weak order, and what follows when the comparator
compares a key that no two elements share: the front of the sorted list is
the nearest elements, whichever of the two functions is called.
-/

namespace Sorting

variable {α κ : Type}

/-- The comparators the sorting functions accept. -/
structure StrictWeak (less : α → α → Bool) : Prop where
  irrefl : ∀ a, less a a = false
  trans : ∀ a b c, less a b = true → less b c = true → less a c = true
  incomparable : ∀ a b c, less a b = false → less b c = false → less a c = false

/-- A correct sort and a correct partial sort. After a partial sort the first
`k` elements are in order, and none of the others is below one of them. -/
structure Sorts (α : Type) where
  sort : (α → α → Bool) → List α → List α
  partialSort : (α → α → Bool) → Nat → List α → List α
  sort_perm : ∀ less xs, StrictWeak less → (sort less xs).Perm xs
  sort_sorted : ∀ less xs, StrictWeak less →
    (sort less xs).Pairwise fun a b => less b a = false
  partialSort_perm : ∀ less k xs, StrictWeak less → k ≤ xs.length →
    (partialSort less k xs).Perm xs
  partialSort_sorted : ∀ less k xs, StrictWeak less → k ≤ xs.length →
    ((partialSort less k xs).take k).Pairwise fun a b => less b a = false
  partialSort_rest : ∀ less k xs, StrictWeak less → k ≤ xs.length →
    ∀ a ∈ (partialSort less k xs).take k, ∀ b ∈ (partialSort less k xs).drop k, less b a = false

theorem pairwise_insertion {less : α → α → Bool} (h : StrictWeak less) (xs : List α) :
    (xs.insertionSort fun a b => less b a = false).Pairwise fun a b => less b a = false := by
  have : Std.Total fun a b : α => less b a = false := by
    constructor
    intro a b
    by_contra hboth
    rw [not_or, Bool.not_eq_false, Bool.not_eq_false] at hboth
    have hself := h.trans a b a hboth.2 hboth.1
    rw [h.irrefl] at hself
    cases hself
  have : IsTrans α fun a b => less b a = false :=
    ⟨fun a b c hab hbc => h.incomparable c b a hbc hab⟩
  exact List.pairwise_insertionSort _ xs

/-- Sorting by insertion is correct, and does for a partial sort as well. -/
def Sorts.byInsertion (α : Type) : Sorts α where
  sort less xs := xs.insertionSort fun a b => less b a = false
  partialSort less _ xs := xs.insertionSort fun a b => less b a = false
  sort_perm _ xs _ := List.perm_insertionSort _ xs
  sort_sorted _ xs h := pairwise_insertion h xs
  partialSort_perm _ _ xs _ _ := List.perm_insertionSort _ xs
  partialSort_sorted _ _ xs h _ := (pairwise_insertion h xs).sublist (List.take_sublist _ _)
  partialSort_rest _ k xs h _ := by
    have hsorted := pairwise_insertion h xs
    rw [← List.take_append_drop k (xs.insertionSort _), List.pairwise_append] at hsorted
    exact hsorted.2.2

/-! ## Comparing a key -/

variable [LinearOrder κ] {key : α → κ}

theorem strictWeak_of_key {less : α → α → Bool} (h : ∀ a b, less a b = true ↔ key a < key b) :
    StrictWeak less where
  irrefl a := by simp [Bool.eq_false_iff, h]
  trans a b c hab hbc := (h a c).mpr (((h a b).mp hab).trans ((h b c).mp hbc))
  incomparable a b c hab hbc := by
    simp only [Bool.eq_false_iff, ne_eq, h, not_lt] at *
    exact hbc.trans hab

theorem pairwise_key {less : α → α → Bool} (h : ∀ a b, less a b = true ↔ key a < key b)
    {xs : List α} (hs : xs.Pairwise fun a b => less b a = false) :
    xs.Pairwise fun a b => key a ≤ key b := by
  refine hs.imp fun {a b} hab => ?_
  rw [Bool.eq_false_iff, ne_eq, h, not_lt] at hab
  exact hab

/-- A list whose keys are in order is the sorted list, when no key repeats. -/
theorem eq_insertionSort {xs ys : List α} (hkeys : (xs.map key).Nodup) (hperm : ys.Perm xs)
    (hsorted : ys.Pairwise fun a b => key a ≤ key b) :
    ys = xs.insertionSort fun a b => key a ≤ key b := by
  have hnodup : (ys.map key).Nodup := (hperm.map key).nodup_iff.mpr hkeys
  rw [List.Nodup, List.pairwise_map] at hnodup
  have hstrict : LowerBound.Sorted key ys :=
    (hsorted.and hnodup).imp fun hab => lt_of_le_of_ne hab.1 hab.2
  exact hstrict.eq_of_perm (LowerBound.sorted_insertionSort hkeys)
    (hperm.trans (List.perm_insertionSort _ xs).symm)

theorem Sorts.take_sort (std : Sorts α) {less : α → α → Bool}
    (h : ∀ a b, less a b = true ↔ key a < key b) {xs : List α} (hkeys : (xs.map key).Nodup)
    (k : Nat) : (std.sort less xs).take k = Nearest.nearest key k xs := by
  have hweak := strictWeak_of_key h
  rw [Nearest.nearest, ← eq_insertionSort hkeys (std.sort_perm less xs hweak)
    (pairwise_key h (std.sort_sorted less xs hweak))]

theorem Sorts.take_partialSort (std : Sorts α) {less : α → α → Bool}
    (h : ∀ a b, less a b = true ↔ key a < key b) {xs : List α} (hkeys : (xs.map key).Nodup)
    {k : Nat} (hk : k ≤ xs.length) :
    (std.partialSort less k xs).take k = Nearest.nearest key k xs := by
  have hweak := strictWeak_of_key h
  have hperm := std.partialSort_perm less k xs hweak hk
  have hfront := std.partialSort_sorted less k xs hweak hk
  have hrest := std.partialSort_rest less k xs hweak hk
  generalize std.partialSort less k xs = ys at *
  -- sorting what the partial sort left in disorder completes the sort
  have hsorted : (ys.take k ++ (ys.drop k).insertionSort fun a b => less b a = false).Pairwise
      fun a b => less b a = false := by
    refine List.pairwise_append.mpr ⟨hfront, pairwise_insertion hweak _, fun a ha b hb => ?_⟩
    exact hrest a ha b ((List.perm_insertionSort _ _).mem_iff.mp hb)
  have hwhole : (ys.take k ++ (ys.drop k).insertionSort fun a b => less b a = false).Perm xs := by
    refine ((List.perm_insertionSort _ _).append_left _).trans ?_
    rw [List.take_append_drop]
    exact hperm
  rw [Nearest.nearest, ← eq_insertionSort hkeys hwhole (pairwise_key h hsorted),
    List.take_left' (List.length_take_of_le (by rwa [hperm.length_eq]))]

end Sorting

import Madoka.Lib.LowerBound

/-!
# Bisect

Searching by halving, as `std::lower_bound` and `std::binary_search` do it,
and that on a list sorted by its keys this finds the position a walk from the
front finds.
-/

namespace Bisect

open LowerBound

variable {α κ : Type} [LinearOrder κ] (key : α → κ)

/-- Halve the `count` elements from `first` on until none are left. -/
def lowerBound (v : κ) (xs : List α) (first count : Nat) : Nat :=
  if count = 0 then first
  else
    match xs[first + count / 2]? with
    | none => first
    | some x =>
        if key x < v then lowerBound v xs (first + count / 2 + 1) (count - (count / 2 + 1))
        else lowerBound v xs first (count / 2)
termination_by count

/-- Whether the element the search stops at has the key. -/
def binarySearch (v : κ) (xs : List α) : Bool :=
  match xs[lowerBound key v xs 0 xs.length]? with
  | none => false
  | some x => !decide (v < key x)

/-- The elements before the position are below the key, those from it on are
not. -/
structure Splits (v : κ) (xs : List α) (position : Nat) : Prop where
  below : ∀ i x, i < position → xs[i]? = some x → key x < v
  above : ∀ i x, position ≤ i → xs[i]? = some x → ¬ key x < v

variable {key}

/-- In a sorted list the halving stops at the split, when all before the range
are below the key and all behind it are not. -/
theorem splits_lowerBound {xs : List α} (hs : Sorted key xs) (v : κ) (first count : Nat)
    (hrange : first + count ≤ xs.length)
    (hbelow : ∀ i x, i < first → xs[i]? = some x → key x < v)
    (habove : ∀ i x, first + count ≤ i → xs[i]? = some x → ¬ key x < v) :
    Splits key v xs (lowerBound key v xs first count) := by
  induction count using Nat.strong_induction_on generalizing first with
  | _ count ih =>
      rw [lowerBound]
      split
      · rename_i hzero
        subst hzero
        exact ⟨hbelow, habove⟩
      · rename_i hpos
        have hmid : first + count / 2 < xs.length := by omega
        have hlt : ∀ i j, (hij : i < j) → (hj : j < xs.length) → key xs[i] < key xs[j] :=
          fun i j hij hj => List.pairwise_iff_getElem.mp hs i j _ hj hij
        rw [List.getElem?_eq_getElem hmid]
        dsimp only
        split
        · rename_i hlow
          apply ih _ (by omega)
          · omega
          · intro i x hi hx
            obtain ⟨hlength, rfl⟩ := List.getElem?_eq_some_iff.mp hx
            rcases Nat.lt_or_ge i (first + count / 2) with hless | hmore
            · exact (hlt i _ hless hmid).trans hlow
            · obtain rfl : i = first + count / 2 := by omega
              exact hlow
          · intro i x hi hx
            exact habove i x (by omega) hx
        · rename_i hhigh
          apply ih _ (by omega)
          · omega
          · exact hbelow
          · intro i x hi hx
            obtain ⟨hlength, rfl⟩ := List.getElem?_eq_some_iff.mp hx
            rcases Nat.lt_or_ge (first + count / 2) i with hmore | hless
            · exact fun hlow => hhigh ((hlt _ i hmore hlength).trans hlow)
            · obtain rfl : i = first + count / 2 := by omega
              exact hhigh

theorem binarySearch_iff {xs : List α} (hs : Sorted key xs) (v : κ) :
    binarySearch key v xs = true ↔ ∃ x ∈ xs, key x = v := by
  have hsplit := splits_lowerBound hs v 0 xs.length (by omega) (fun i x hi => by omega)
    (fun i x hi hx => by
      rw [List.getElem?_eq_none (by omega)] at hx
      cases hx)
  rw [binarySearch]
  generalize lowerBound key v xs 0 xs.length = position at hsplit
  constructor
  · intro h
    split at h
    · cases h
    · rename_i x hx
      have hnot := hsplit.above position x (le_refl _) hx
      exact ⟨x, List.mem_of_getElem? hx,
        le_antisymm (not_lt.mp (by simpa using h)) (not_lt.mp hnot)⟩
  · rintro ⟨x, hmem, rfl⟩
    obtain ⟨i, hi, rfl⟩ := List.mem_iff_getElem.mp hmem
    have hposition : position ≤ i := by
      by_contra hless
      exact lt_irrefl _ (hsplit.below i _ (not_le.mp hless) (List.getElem?_eq_getElem hi))
    have hlength : position < xs.length := by omega
    rw [List.getElem?_eq_getElem hlength]
    have hle : key xs[position] ≤ key xs[i] := by
      rcases Nat.lt_or_eq_of_le hposition with hless | heq
      · exact (List.pairwise_iff_getElem.mp hs position i hlength hi hless).le
      · simp only [heq, le_refl]
    simpa using hle

end Bisect

import Mathlib

/-!
# Lower Bound

A list kept strictly sorted by a key and searched with `std::lower_bound`:
the position the search returns, the lookup and the replace-or-insert built
on it, and what both do to the order and to the members.
-/

namespace LowerBound

variable {α κ : Type} [LinearOrder κ] (key : α → κ)

/-- Strictly increasing keys: sorted, and no key twice. -/
def Sorted (xs : List α) : Prop :=
  xs.Pairwise fun a b => key a < key b

/-- The first position whose key is not below `v` (`std::lower_bound`). -/
def index (v : κ) : List α → Nat
  | [] => 0
  | x :: xs => if key x < v then index v xs + 1 else 0

/-- The element the search stops at, when its key is the one asked for. -/
def find? (v : κ) (xs : List α) : Option α :=
  (xs[index key v xs]?).filter fun x => key x = v

/-- Replace the entry with the same key, or insert where the search stops. -/
def put (a : α) (xs : List α) : List α :=
  if (find? key (key a) xs).isSome then xs.set (index key (key a) xs) a
  else xs.insertIdx (index key (key a) xs) a

variable {key}

theorem index_le_length (v : κ) (xs : List α) : index key v xs ≤ xs.length := by
  induction xs with
  | nil => simp [index]
  | cons x xs ih =>
      simp only [index]
      split
      · simp; omega
      · simp

theorem find?_cons (v : κ) (x : α) (xs : List α) :
    find? key v (x :: xs) =
      if key x < v then find? key v xs else if key x = v then some x else none := by
  by_cases h : key x < v
  · simp [find?, index, h]
  · by_cases hv : key x = v <;> simp [find?, index, h, hv]

theorem put_nil (a : α) : put key a [] = [a] := by
  simp [put, find?, index]

theorem put_cons (a x : α) (xs : List α) :
    put key a (x :: xs) =
      if key x < key a then x :: put key a xs
      else if key x = key a then a :: xs else a :: x :: xs := by
  by_cases h : key x < key a
  · simp only [put, find?_cons, h, if_true, index]
    split <;> simp
  · by_cases hv : key x = key a <;> simp [put, find?_cons, index, h, hv]

/-! ## Members -/

theorem find?_some {v : κ} {xs : List α} {x : α} (h : find? key v xs = some x) :
    x ∈ xs ∧ key x = v := by
  simp only [find?, Option.filter_eq_some_iff, decide_eq_true_eq] at h
  exact ⟨List.mem_of_getElem? h.1, h.2⟩

theorem find?_of_mem {xs : List α} (hs : Sorted key xs) {x : α} (hx : x ∈ xs) :
    find? key (key x) xs = some x := by
  induction xs with
  | nil => simp at hx
  | cons y ys ih =>
      obtain ⟨hy, hys⟩ := List.pairwise_cons.mp hs
      rw [find?_cons]
      rcases List.mem_cons.mp hx with rfl | hmem
      · simp
      · rw [if_pos (hy x hmem)]
        exact ih hys hmem

theorem find?_eq_none {xs : List α} (hs : Sorted key xs) {v : κ} :
    find? key v xs = none ↔ ∀ x ∈ xs, key x ≠ v := by
  constructor
  · intro h x hx hv
    rw [← hv, find?_of_mem hs hx] at h
    cases h
  · intro h
    cases hf : find? key v xs with
    | none => rfl
    | some x =>
        obtain ⟨hx, hv⟩ := find?_some hf
        exact absurd hv (h x hx)

theorem mem_put {xs : List α} (hs : Sorted key xs) {a x : α} :
    x ∈ put key a xs ↔ x = a ∨ (x ∈ xs ∧ key x ≠ key a) := by
  induction xs with
  | nil => simp [put_nil]
  | cons y ys ih =>
      obtain ⟨hy, hys⟩ := List.pairwise_cons.mp hs
      rw [put_cons]
      by_cases hlt : key y < key a
      · simp only [hlt, if_true, List.mem_cons, ih hys]
        have hne : key y ≠ key a := ne_of_lt hlt
        constructor
        · rintro (rfl | rfl | h)
          · exact .inr ⟨.inl rfl, hne⟩
          · exact .inl rfl
          · exact .inr ⟨.inr h.1, h.2⟩
        · rintro (rfl | ⟨rfl | h, hk⟩)
          · exact .inr (.inl rfl)
          · exact .inl rfl
          · exact .inr (.inr ⟨h, hk⟩)
      · -- from here on every later key is above the one inserted
        have hlater : ∀ z ∈ ys, key z ≠ key a := fun z hz =>
          ne_of_gt (lt_of_le_of_lt (not_lt.mp hlt) (hy z hz))
        by_cases heq : key y = key a
        · simp only [heq, lt_irrefl, if_false, if_true, List.mem_cons]
          constructor
          · rintro (rfl | h)
            · exact .inl rfl
            · exact .inr ⟨.inr h, hlater x h⟩
          · rintro (rfl | ⟨rfl | h, hk⟩)
            · exact .inl rfl
            · exact absurd heq hk
            · exact .inr h
        · simp only [hlt, heq, if_false, List.mem_cons]
          constructor
          · rintro (rfl | rfl | h)
            · exact .inl rfl
            · exact .inr ⟨.inl rfl, heq⟩
            · exact .inr ⟨.inr h, hlater x h⟩
          · rintro (rfl | ⟨h, _⟩)
            · exact .inl rfl
            · exact .inr h

/-! ## Order and size -/

theorem put_sorted {xs : List α} (hs : Sorted key xs) (a : α) :
    Sorted key (put key a xs) := by
  induction xs with
  | nil => simp [put_nil, Sorted]
  | cons y ys ih =>
      obtain ⟨hy, hys⟩ := List.pairwise_cons.mp hs
      rw [put_cons]
      by_cases hlt : key y < key a
      · simp only [hlt, if_true]
        refine List.pairwise_cons.mpr ⟨fun z hz => ?_, ih hys⟩
        rcases (mem_put hys).mp hz with rfl | ⟨h, _⟩
        · exact hlt
        · exact hy z h
      · by_cases heq : key y = key a
        · simp only [heq, lt_irrefl, if_false, if_true]
          exact List.pairwise_cons.mpr ⟨fun z hz => heq ▸ hy z hz, hys⟩
        · have hgt : key a < key y := lt_of_le_of_ne (not_lt.mp hlt) (Ne.symm heq)
          simp only [hlt, heq, if_false]
          refine List.pairwise_cons.mpr ⟨fun z hz => ?_, hs⟩
          rcases List.mem_cons.mp hz with rfl | h
          · exact hgt
          · exact lt_trans hgt (hy z h)

theorem length_put (a : α) (xs : List α) :
    (put key a xs).length =
      if (find? key (key a) xs).isSome then xs.length else xs.length + 1 := by
  unfold put
  split
  · simp
  · rw [List.length_insertIdx_of_le_length (index_le_length _ _)]

/-- The search runs off the end exactly when every key is below `v`. -/
theorem index_eq_length_iff {v : κ} {xs : List α} :
    index key v xs = xs.length ↔ ∀ x ∈ xs, key x < v := by
  induction xs with
  | nil => simp [index]
  | cons x xs ih =>
      by_cases h : key x < v <;> simp [index, h, ih]

/-- A strictly sorted list is determined by its members. -/
theorem Sorted.eq_of_perm {xs ys : List α} (hx : Sorted key xs) (hy : Sorted key ys)
    (h : xs.Perm ys) : xs = ys :=
  h.eq_of_pairwise (fun _ _ _ _ h1 h2 => absurd h2 (lt_asymm h1)) hx hy

theorem Sorted.nodup {xs : List α} (hs : Sorted key xs) : xs.Nodup := by
  refine List.Pairwise.imp ?_ hs
  intro a b hlt heq
  rw [heq] at hlt
  exact lt_irrefl _ hlt

/-- Sorting a list without repeated keys sorts it strictly. -/
theorem sorted_insertionSort {xs : List α} (h : (xs.map key).Nodup) :
    Sorted key (xs.insertionSort fun a b => key a ≤ key b) := by
  have hle : (xs.insertionSort fun a b => key a ≤ key b).Pairwise fun a b => key a ≤ key b := by
    have : Std.Total fun a b : α => key a ≤ key b := ⟨fun a b => le_total (key a) (key b)⟩
    have : IsTrans α fun a b => key a ≤ key b := ⟨fun _ _ _ => le_trans⟩
    exact List.pairwise_insertionSort _ xs
  have hkeys : ((xs.insertionSort fun a b => key a ≤ key b).map key).Nodup :=
    ((List.perm_insertionSort _ xs).map key).nodup_iff.mpr h
  rw [List.Nodup, List.pairwise_map] at hkeys
  exact (hle.and hkeys).imp fun hab => lt_of_le_of_ne hab.1 hab.2

end LowerBound

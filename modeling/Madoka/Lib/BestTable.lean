import Madoka.Lib.FirstMatch

/-!
# Best Table

A table of bounded capacity with one element for each key. An element that is
put replaces the one with its key if it ranks below it; without one it is
appended while there is room. What has been put one after the other leaves the
least element of each of the first keys.
-/

namespace BestTable

variable {α κ ρ : Type} [DecidableEq κ] [LinearOrder ρ]

/-- The first distinct keys, as many as there is room for. -/
def firstDistinct (capacity : Nat) : List κ → List κ :=
  List.foldl (fun keys k => if k ∈ keys ∨ capacity ≤ keys.length then keys else keys ++ [k]) []

variable (capacity : Nat) (key : α → κ) (rank : α → ρ)

def put (table : List α) (x : α) : List α :=
  match FirstMatch.update (fun e => key e = key x)
      (fun e => (if rank x < rank e then x else e, ())) table with
  | some (table, _) => table
  | none => if table.length < capacity then table ++ [x] else table

/-- What a table holds after `xs` were put into an empty one. -/
structure Holds (xs table : List α) : Prop where
  keys : table.map key = firstDistinct capacity (xs.map key)
  mem : ∀ e ∈ table, e ∈ xs
  least : ∀ e ∈ table, ∀ x ∈ xs, key x = key e → rank e ≤ rank x

variable {capacity key rank} {xs table : List α}

variable (capacity) in
theorem firstDistinct_concat (keys : List κ) (k : κ) :
    firstDistinct capacity (keys ++ [k])
      = if k ∈ firstDistinct capacity keys ∨ capacity ≤ (firstDistinct capacity keys).length then
          firstDistinct capacity keys
        else firstDistinct capacity keys ++ [k] := by
  unfold firstDistinct
  rw [List.foldl_append]
  rfl

theorem firstDistinct_nodup (keys : List κ) : (firstDistinct capacity keys).Nodup := by
  induction keys using List.reverseRecOn with
  | nil => simp [firstDistinct]
  | append_singleton keys k ih =>
      rw [firstDistinct_concat]
      split
      next => exact ih
      next h =>
        have hk : k ∉ firstDistinct capacity keys := fun hk => h (.inl hk)
        rw [List.nodup_append]
        simp only [List.nodup_cons, List.not_mem_nil, not_false_eq_true, List.nodup_nil, and_self,
          List.mem_singleton, true_and, ih]
        intro a ha b hb hab
        exact hk (hb ▸ hab ▸ ha)

/-- A key that was seen and is missing had no room, so there is none. -/
theorem firstDistinct_full {keys : List κ} {k : κ} (hk : k ∈ keys)
    (hmissing : k ∉ firstDistinct capacity keys) :
    capacity ≤ (firstDistinct capacity keys).length := by
  induction keys using List.reverseRecOn with
  | nil => cases hk
  | append_singleton keys k' ih =>
      rw [firstDistinct_concat] at hmissing ⊢
      split at hmissing
      next h =>
        rw [if_pos h]
        rcases List.mem_append.mp hk with hk | hk
        · exact ih hk hmissing
        · rw [List.mem_singleton.mp hk] at hmissing
          exact h.resolve_left hmissing
      next h =>
        rw [if_neg h, List.length_append]
        rw [List.mem_append, not_or, List.mem_singleton] at hmissing
        rcases List.mem_append.mp hk with hk | hk
        · exact (ih hk hmissing.1).trans (Nat.le_add_right _ _)
        · exact absurd (List.mem_singleton.mp hk) hmissing.2

theorem holds_nil : Holds capacity key rank [] [] where
  keys := rfl
  mem e he := by cases he
  least e he := by cases he

theorem Holds.keys_concat (h : Holds capacity key rank xs table) (x : α) :
    firstDistinct capacity ((xs ++ [x]).map key)
      = if key x ∈ table.map key ∨ capacity ≤ table.length then table.map key
        else table.map key ++ [key x] := by
  rw [List.map_append, List.map_singleton, firstDistinct_concat, ← h.keys, List.length_map]

theorem Holds.nodup (h : Holds capacity key rank xs table) : (table.map key).Nodup :=
  h.keys ▸ firstDistinct_nodup _

/-- An element with a new key. -/
theorem Holds.append (h : Holds capacity key rank xs table) {x : α}
    (hnew : ∀ e ∈ table, key e ≠ key x) :
    Holds capacity key rank (xs ++ [x])
      (if table.length < capacity then table ++ [x] else table) := by
  have hkeys := h.keys_concat x
  have hmissing : key x ∉ table.map key := by
    intro hmem
    obtain ⟨e, he, hkey⟩ := List.mem_map.mp hmem
    exact hnew e he hkey
  have hold : ∀ e ∈ table, ∀ y ∈ xs ++ [x], key y = key e → rank e ≤ rank y := by
    intro e he y hy hkey
    rcases List.mem_append.mp hy with hy | hy
    · exact h.least e he y hy hkey
    · rw [List.mem_singleton.mp hy] at hkey
      exact absurd hkey.symm (hnew e he)
  split
  next hroom =>
    rw [if_neg (not_or.mpr ⟨hmissing, not_le.mpr hroom⟩)] at hkeys
    refine ⟨?_, ?_, ?_⟩
    · rw [hkeys, List.map_append]
      rfl
    · intro e he
      rcases List.mem_append.mp he with he | he
      · exact List.mem_append_left _ (h.mem e he)
      · exact List.mem_append_right _ he
    · intro e he
      rcases List.mem_append.mp he with he | he
      · exact hold e he
      · rw [List.mem_singleton.mp he]
        intro y hy hkey
        rcases List.mem_append.mp hy with hy | hy
        · -- an earlier element with this key would have been kept, as there is room
          rw [h.keys] at hmissing
          have hfull := firstDistinct_full (hkey ▸ List.mem_map_of_mem hy) hmissing
          rw [← h.keys, List.length_map] at hfull
          exact absurd hroom (not_lt.mpr hfull)
        · rw [List.mem_singleton.mp hy]
  next hfull =>
    rw [if_pos (.inr (not_lt.mp hfull))] at hkeys
    exact ⟨hkeys.symm, fun e he => List.mem_append_left _ (h.mem e he), hold⟩

/-- An element with the key of one that is there. -/
theorem Holds.replace {before after : List α} {e₀ x : α}
    (h : Holds capacity key rank xs (before ++ e₀ :: after)) (hkey₀ : key e₀ = key x) :
    Holds capacity key rank (xs ++ [x])
      (before ++ (if rank x < rank e₀ then x else e₀) :: after) := by
  have hkeys := h.keys_concat x
  have hnodup := h.nodup
  have hmem₀ : e₀ ∈ before ++ e₀ :: after := List.mem_append_right _ List.mem_cons_self
  rw [if_pos (.inl (hkey₀ ▸ List.mem_map_of_mem hmem₀))] at hkeys
  have hkey : key (if rank x < rank e₀ then x else e₀) = key e₀ := by
    split
    · exact hkey₀.symm
    · rfl
  have hle : rank (if rank x < rank e₀ then x else e₀) ≤ rank x
      ∧ rank (if rank x < rank e₀ then x else e₀) ≤ rank e₀ := by
    split
    next hlt => exact ⟨le_rfl, hlt.le⟩
    next hge => exact ⟨not_lt.mp hge, le_rfl⟩
  refine ⟨?_, ?_, ?_⟩
  · rw [hkeys, List.map_append, List.map_append, List.map_cons, List.map_cons, hkey]
  · intro e he
    rcases List.mem_append.mp he with he | he
    · exact List.mem_append_left _ (h.mem e (List.mem_append_left _ he))
    · rcases List.mem_cons.mp he with rfl | he
      · split
        · exact List.mem_append_right _ (List.mem_singleton.mpr rfl)
        · exact List.mem_append_left _ (h.mem e₀ hmem₀)
      · exact List.mem_append_left _ (h.mem e (List.mem_append_right _ (List.mem_cons_of_mem _ he)))
  · -- the other elements have other keys
    rw [List.map_append, List.map_cons, List.nodup_middle, List.nodup_cons, List.mem_append,
      not_or] at hnodup
    have hother : ∀ e, e ∈ before ∨ e ∈ after → ∀ y ∈ xs ++ [x], key y = key e →
        rank e ≤ rank y := by
      intro e he y hy hkeye
      have hmem : e ∈ before ++ e₀ :: after := by
        rcases he with he | he
        · exact List.mem_append_left _ he
        · exact List.mem_append_right _ (List.mem_cons_of_mem _ he)
      rcases List.mem_append.mp hy with hy | hy
      · exact h.least e hmem y hy hkeye
      · rw [List.mem_singleton.mp hy, ← hkey₀] at hkeye
        rw [hkeye] at hnodup
        rcases he with he | he
        · exact absurd (List.mem_map_of_mem he) hnodup.1.1
        · exact absurd (List.mem_map_of_mem he) hnodup.1.2
    intro e he
    rcases List.mem_append.mp he with he | he
    · exact hother e (.inl he)
    · rcases List.mem_cons.mp he with rfl | he
      · intro y hy hkeyy
        rw [hkey] at hkeyy
        rcases List.mem_append.mp hy with hy | hy
        · exact hle.2.trans (h.least e₀ hmem₀ y hy hkeyy)
        · rw [List.mem_singleton.mp hy]
          exact hle.1
      · exact hother e (.inr he)

/-- Putting one more element. -/
theorem Holds.put {x : α} (h : Holds capacity key rank xs table) :
    Holds capacity key rank (xs ++ [x]) (put capacity key rank table x) := by
  unfold BestTable.put
  cases hupdate : FirstMatch.update (fun e => key e = key x)
      (fun e => (if rank x < rank e then x else e, ())) table with
  | none =>
      refine h.append fun e he => ?_
      simpa using FirstMatch.update_eq_none.mp hupdate e he
  | some result =>
      obtain ⟨table', _⟩ := result
      obtain ⟨before, e₀, after, htable, -, hkey₀, htable', -⟩ := FirstMatch.update_eq_some hupdate
      subst htable
      subst htable'
      exact h.replace (by simpa using hkey₀)

/-- Putting several more. -/
theorem Holds.foldl (h : Holds capacity key rank xs table) (ys : List α) :
    Holds capacity key rank (xs ++ ys) (ys.foldl (BestTable.put capacity key rank) table) := by
  induction ys generalizing xs table with
  | nil => simpa using h
  | cons y ys ih => simpa using ih h.put

/-- Each of the first keys has an element. -/
theorem Holds.exists_of_mem (h : Holds capacity key rank xs table) {k : κ}
    (hk : k ∈ firstDistinct capacity (xs.map key)) : ∃ e ∈ table, key e = k := by
  rw [← h.keys] at hk
  exact List.mem_map.mp hk

end BestTable

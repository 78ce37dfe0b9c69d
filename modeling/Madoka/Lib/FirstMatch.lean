import Mathlib

/-!
# First Match

What `std::find_if` is used for on a vector whose element is then written
through the iterator: the first element that matches is replaced, and
something is told about it.
-/

namespace FirstMatch

variable {α β : Type}

/-- Replace the first match by what `f` makes of it; none when nothing
matches. -/
def update (p : α → Bool) (f : α → α × β) : List α → Option (List α × β)
  | [] => none
  | x :: xs =>
      if p x then some ((f x).1 :: xs, (f x).2)
      else
        match update p f xs with
        | none => none
        | some (ys, b) => some (x :: ys, b)

variable {p : α → Bool} {f : α → α × β}

theorem update_eq_none {xs : List α} : update p f xs = none ↔ ∀ x ∈ xs, p x = false := by
  induction xs with
  | nil => simp [update]
  | cons x xs ih =>
      by_cases hx : p x = true
      · simp [update, hx]
      · simp only [update, hx, Bool.false_eq_true, if_false, List.forall_mem_cons, true_and]
        rw [← ih]
        cases update p f xs <;> simp

/-- The list is split at the match. -/
theorem update_eq_some {xs ys : List α} {b : β} (h : update p f xs = some (ys, b)) :
    ∃ before x after, xs = before ++ x :: after ∧ (∀ y ∈ before, p y = false) ∧ p x = true
      ∧ ys = before ++ (f x).1 :: after ∧ b = (f x).2 := by
  induction xs generalizing ys with
  | nil => cases h
  | cons x xs ih =>
      by_cases hx : p x = true
      · simp only [update, hx, if_true, Option.some.injEq, Prod.mk.injEq] at h
        exact ⟨[], x, xs, rfl, fun y hy => absurd hy List.not_mem_nil, hx, h.1.symm, h.2.symm⟩
      · simp only [update, hx, Bool.false_eq_true, if_false] at h
        cases hrest : update p f xs with
        | none => simp [hrest] at h
        | some result =>
            obtain ⟨zs, c⟩ := result
            simp only [hrest, Option.some.injEq, Prod.mk.injEq] at h
            obtain ⟨rfl, rfl⟩ := h
            obtain ⟨before, y, after, rfl, hbefore, hy, rfl, rfl⟩ := ih hrest
            refine ⟨x :: before, y, after, rfl, ?_, hy, rfl, rfl⟩
            intro z hz
            rcases List.mem_cons.mp hz with rfl | hz
            · simpa using hx
            · exact hbefore z hz

theorem update_of_split {before after : List α} {x : α} (hbefore : ∀ y ∈ before, p y = false)
    (hx : p x = true) :
    update p f (before ++ x :: after) = some (before ++ (f x).1 :: after, (f x).2) := by
  induction before with
  | nil => simp [update, hx]
  | cons y before ih =>
      have hy : p y = false := hbefore y List.mem_cons_self
      have hrest := ih fun z hz => hbefore z (List.mem_cons_of_mem y hz)
      simp [update, hy, hrest]

/-- Where the matches share a key that occurs once, only one element can
change. -/
theorem update_eq_map {κ : Type} [DecidableEq κ] {key : α → κ} {k : κ} {xs ys : List α} {b : β}
    (hdistinct : (xs.map key).Nodup) (h : update (fun x => key x = k) f xs = some (ys, b)) :
    ys = xs.map fun x => if key x = k then (f x).1 else x := by
  obtain ⟨before, x, after, rfl, hbefore, hx, rfl, -⟩ := update_eq_some h
  rw [List.map_append, List.map_cons, List.nodup_middle, List.nodup_cons, List.mem_append,
    not_or] at hdistinct
  have hkey : key x = k := by simpa using hx
  have hsame : ∀ zs : List α, key x ∉ zs.map key →
      (zs.map fun z => if key z = k then (f z).1 else z) = zs := by
    intro zs hzs
    refine (List.map_congr_left fun z hz => ?_).trans (List.map_id zs)
    have hz' : key z ≠ k := by
      intro heq
      rw [hkey, ← heq] at hzs
      exact hzs (List.mem_map_of_mem hz)
    rw [if_neg hz', id]
  rw [List.map_append, List.map_cons, if_pos hkey, hsame before hdistinct.1.1,
    hsame after hdistinct.1.2]

/-- The list that is left depends on what `f` writes only, not on what it
tells. -/
theorem update_fst_congr {γ : Type} {q : α → Bool} {g : α → α × γ} {xs : List α}
    (hp : ∀ x ∈ xs, p x = q x) (hf : ∀ x ∈ xs, q x = true → (f x).1 = (g x).1) :
    (update p f xs).map Prod.fst = (update q g xs).map Prod.fst := by
  induction xs with
  | nil => rfl
  | cons x xs ih =>
      have hrest := ih (fun y hy => hp y (List.mem_cons_of_mem _ hy))
        fun y hy => hf y (List.mem_cons_of_mem _ hy)
      have hx := hp x List.mem_cons_self
      by_cases hq : q x = true
      · have hfx := hf x List.mem_cons_self hq
        simp [update, hx, hq, hfx]
      · simp only [update, hx, hq, Bool.false_eq_true, if_false]
        cases hupdate : update p f xs <;> cases hupdate' : update q g xs <;>
          simp_all

/-! ## Where the order does not matter -/

/-- Searching a list in any order finds the same when at most one element
matches. -/
theorem find?_perm {xs ys : List α} (h : xs.Perm ys)
    (honce : xs.Pairwise fun a b => ¬ (p a = true ∧ p b = true)) : xs.find? p = ys.find? p := by
  have hunique : ∀ a ∈ xs, ∀ b ∈ xs, p a = true → p b = true → a = b := by
    intro a ha b hb hpa hpb
    by_contra hne
    have : Std.Symm fun a b : α => ¬ (p a = true ∧ p b = true) := ⟨fun _ _ hab hba => hab hba.symm⟩
    exact honce.forall ha hb hne ⟨hpa, hpb⟩
  cases hys : ys.find? p with
  | none =>
      rw [List.find?_eq_none] at hys ⊢
      exact fun x hx => hys x (h.mem_iff.mp hx)
  | some b =>
      have hb := h.mem_iff.mpr (List.mem_of_find?_eq_some hys)
      cases hxs : xs.find? p with
      | none => exact absurd (List.find?_some hys) (List.find?_eq_none.mp hxs b hb)
      | some a =>
          rw [hunique a (List.mem_of_find?_eq_some hxs) b hb (List.find?_some hxs)
            (List.find?_some hys)]

/-- And when the order does not matter, no two different elements match. -/
theorem eq_of_find?_perm {xs : List α} (h : ∀ ys, xs.Perm ys → ys.find? p = xs.find? p) {a b : α}
    (ha : a ∈ xs) (hb : b ∈ xs) (hpa : p a = true) (hpb : p b = true) : a = b := by
  have hfirst : ∀ c ∈ xs, p c = true → xs.find? p = some c := by
    intro c hc hpc
    obtain ⟨before, after, rfl⟩ := List.append_of_mem hc
    rw [← h _ List.perm_middle, List.find?_cons_of_pos hpc]
  exact Option.some.inj ((hfirst a ha hpa).symm.trans (hfirst b hb hpb))

/-- Erasing the first match leaves what is before and behind it. -/
theorem eraseP_split {before after : List α} {x : α} (hbefore : ∀ y ∈ before, p y = false)
    (hx : p x = true) : (before ++ x :: after).eraseP p = before ++ after := by
  rw [List.eraseP_append_right _ (fun y hy => by simp [hbefore y hy]), List.eraseP_cons_of_pos hx]

theorem find?_split {before after : List α} {x : α} (hbefore : ∀ y ∈ before, p y = false)
    (hx : p x = true) : (before ++ x :: after).find? p = some x := by
  rw [List.find?_append, List.find?_eq_none.mpr fun y hy => by simp [hbefore y hy],
    List.find?_cons_of_pos hx]
  rfl

end FirstMatch

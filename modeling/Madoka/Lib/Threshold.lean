import Mathlib

/-!
# Threshold

Turns that replace a value by their own when it lies above their bound, taken
one after the other. What a turn brings is its bound or more, so a value may
also get worse; yet once some turn has replaced the value, the outcome does
not depend on where it started.
-/

namespace Threshold

variable {α : Type} [LinearOrder α]

/-- A value above the bound is replaced by the result. -/
structure Turn (α : Type) [LinearOrder α] where
  bound : α
  result : α
  bound_le : bound ≤ result

def Turn.run (t : Turn α) (e : α) : α :=
  if t.bound < e then t.result else e

/-- The turns of a list in a row. -/
def runs (ts : List (Turn α)) (e : α) : α :=
  ts.foldl (fun e t => t.run e) e

variable {t : Turn α} {ts : List (Turn α)} {e e' : α}

theorem runs_cons (t : Turn α) (ts : List (Turn α)) (e : α) : runs (t :: ts) e = runs ts (t.run e) :=
  rfl

theorem runs_append (ts ts' : List (Turn α)) (e : α) : runs (ts ++ ts') e = runs ts' (runs ts e) :=
  List.foldl_append

theorem Turn.run_of_lt (h : t.bound < e) : t.run e = t.result :=
  if_pos h

theorem Turn.run_of_le (h : e ≤ t.bound) : t.run e = e :=
  if_neg (not_lt.mpr h)

/-- A turn that leaves everything alone. -/
def Turn.skip [OrderTop α] : Turn α where
  bound := ⊤
  result := ⊤
  bound_le := le_rfl

theorem Turn.run_skip [OrderTop α] (e : α) : (Turn.skip : Turn α).run e = e :=
  run_of_le le_top

/-- A turn that brings its bound takes the lesser. -/
theorem Turn.run_of_plain (h : t.result = t.bound) (e : α) : t.run e = min t.bound e := by
  by_cases hlt : t.bound < e
  · rw [run_of_lt hlt, h, min_eq_left hlt.le]
  · rw [run_of_le (not_lt.mp hlt), min_eq_right (not_lt.mp hlt)]

/-- The outcome is where the value started, or what some turn has brought. -/
theorem runs_mem (ts : List (Turn α)) (e : α) :
    runs ts e = e ∨ ∃ t ∈ ts, runs ts e = t.result ∧ ∃ a, t.bound < a := by
  induction ts generalizing e with
  | nil => exact .inl rfl
  | cons t ts ih =>
      rw [runs_cons]
      rcases ih (t.run e) with hsame | ⟨u, hu, hruns⟩
      · rw [hsame]
        by_cases hlt : t.bound < e
        · exact .inr ⟨t, List.mem_cons_self, Turn.run_of_lt hlt, e, hlt⟩
        · exact .inl (Turn.run_of_le (not_lt.mp hlt))
      · exact .inr ⟨u, List.mem_cons_of_mem _ hu, hruns⟩

/-- From above, the turns come to the same, unless they left the lower value
alone. -/
theorem runs_of_le (hle : e ≤ e') : runs ts e = e ∨ runs ts e' = runs ts e := by
  induction ts generalizing e e' with
  | nil => exact .inl rfl
  | cons t ts ih =>
      rw [runs_cons, runs_cons]
      by_cases hlt : t.bound < e
      · rw [Turn.run_of_lt hlt, Turn.run_of_lt (hlt.trans_le hle)]
        exact .inr rfl
      · have hbelow : e ≤ t.bound := not_lt.mp hlt
        rw [Turn.run_of_le hbelow]
        by_cases hlt' : t.bound < e'
        · rw [Turn.run_of_lt hlt']
          exact ih (hbelow.trans t.bound_le)
        · rw [Turn.run_of_le (not_lt.mp hlt')]
          exact ih hle

/-- When the turns have replaced the value, they come to the same from
everything above the outcome. -/
theorem runs_of_runs_le (hmoved : runs ts e ≠ e) (hle : runs ts e ≤ e') :
    runs ts e' = runs ts e := by
  induction ts generalizing e e' with
  | nil => exact absurd rfl hmoved
  | cons t ts ih =>
      rw [runs_cons] at hmoved hle ⊢
      rw [runs_cons]
      by_cases hlt : t.bound < e
      · rw [Turn.run_of_lt hlt] at hle ⊢
        by_cases hlt' : t.bound < e'
        · rw [Turn.run_of_lt hlt']
        · rw [Turn.run_of_le (not_lt.mp hlt')]
          by_cases hrest : runs ts t.result = t.result
          · -- the outcome is the result, and the other value is no more than it
            have heq : e' = t.result :=
              le_antisymm ((not_lt.mp hlt').trans t.bound_le) (hrest ▸ hle)
            rw [heq]
          · exact ih hrest hle
      · have hbelow : e ≤ t.bound := not_lt.mp hlt
        rw [Turn.run_of_le hbelow] at hmoved hle ⊢
        by_cases hlt' : t.bound < e'
        · rw [Turn.run_of_lt hlt']
          exact (runs_of_le (hbelow.trans t.bound_le)).resolve_left hmoved
        · rw [Turn.run_of_le (not_lt.mp hlt')]
          exact ih hmoved hle

/-- A plain turn before the others may be exchanged for one whose bound is not
below the outcome, if that one agrees where the outcome is the plain turn's. -/
theorem runs_exchange {old new : Turn α} (hplain : old.result = old.bound)
    (hle : runs ts (old.run e) ≤ new.bound)
    (hown : old.bound < e → runs ts (old.run e) = old.run e → new.run e = old.run e) :
    runs ts (new.run e) = runs ts (old.run e) := by
  have hmin := Turn.run_of_plain hplain e
  by_cases hmoved : runs ts (old.run e) = old.run e
  · by_cases hlt : old.bound < e
    · rw [hown hlt hmoved]
    · have hkept : old.run e = e := Turn.run_of_le (not_lt.mp hlt)
      rw [hmoved, hkept] at hle
      rw [Turn.run_of_le hle, hkept]
  · by_cases hlt : new.bound < e
    · rw [Turn.run_of_lt hlt]
      exact runs_of_runs_le hmoved (hle.trans new.bound_le)
    · rw [Turn.run_of_le (not_lt.mp hlt)]
      have hbelow : old.run e ≤ e := by
        rw [hmin]
        exact min_le_right _ _
      exact (runs_of_le hbelow).resolve_left hmoved

end Threshold

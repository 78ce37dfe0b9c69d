import Mathlib.Logic.Function.Basic
import Mathlib.Order.Basic

/-!
# Idle Window

Keys that are opened and then stay open for as long as they are asked for: each
time within a window of the time before. `Kept` says so of the uses alone, and
`Tracks` of a table that remembers one time per key and may forget the times
that are out of the window.
-/

namespace IdleWindow

inductive Use (κ : Type*) where
  | opens (key : κ) (time : Nat)
  | asks (key : κ) (time : Nat)
deriving DecidableEq

/-- The last link of a chain of uses of the key is within the window: it starts
where the key is opened, and each further link asks for the key within the
window of the one before. The latest use is the first of the list. -/
inductive Kept {κ : Type*} (window : Nat) (key : κ) : List (Use κ) → Nat → Prop
  | opened {time now : Nat} {earlier : List (Use κ)} (h : now ≤ time + window) :
      Kept window key (.opens key time :: earlier) now
  | asked {time now : Nat} {earlier : List (Use κ)} (open' : Kept window key earlier time)
      (h : now ≤ time + window) : Kept window key (.asks key time :: earlier) now
  | earlier {now : Nat} {use : Use κ} {earlier : List (Use κ)} (h : Kept window key earlier now) :
      Kept window key (use :: earlier) now

section
variable {κ : Type*} {window since time now : Nat} {key other : κ} {uses : List (Use κ)}
  {table : κ → Option Nat}

theorem kept_opens_iff :
    Kept window key (.opens other time :: uses) now
      ↔ (key = other ∧ now ≤ time + window) ∨ Kept window key uses now := by
  constructor
  · intro h
    cases h with
    | opened h => exact .inl ⟨rfl, h⟩
    | earlier h => exact .inr h
  · rintro (⟨rfl, h⟩ | h)
    · exact .opened h
    · exact .earlier h

theorem kept_asks_iff :
    Kept window key (.asks other time :: uses) now
      ↔ (key = other ∧ Kept window key uses time ∧ now ≤ time + window)
        ∨ Kept window key uses now := by
  constructor
  · intro h
    cases h with
    | asked hopen h => exact .inl ⟨rfl, hopen, h⟩
    | earlier h => exact .inr h
  · rintro (⟨rfl, hopen, h⟩ | h)
    · exact .asked hopen h
    · exact .earlier h

/-- The time of a key is within the window. -/
def Fresh (window : Nat) (table : κ → Option Nat) (key : κ) (now : Nat) : Prop :=
  ∃ used, table key = some used ∧ now ≤ used + window

/-- No time of the table is later than a moment, and from then on the keys that
are fresh are those that were kept open. -/
structure Tracks (window : Nat) (table : κ → Option Nat) (uses : List (Use κ)) (since : Nat) :
    Prop where
  past : ∀ key used, table key = some used → used ≤ since
  kept : ∀ key now, since ≤ now → (Fresh window table key now ↔ Kept window key uses now)

theorem Tracks.empty (since : Nat) : Tracks window (fun _ : κ => none) [] since where
  past := by simp
  kept := by
    intro key now _
    constructor
    · rintro ⟨used, hused, -⟩
      cases hused
    · intro h
      cases h

/-- A key that is fresh now stays so no longer than if it were used now. -/
theorem Tracks.fresh_le (h : Tracks window table uses since) (htime : since ≤ time)
    (hfresh : Fresh window table key now) : now ≤ time + window := by
  obtain ⟨used, hused, hnow⟩ := hfresh
  have := h.past key used hused
  omega

theorem Tracks.asks_stale (h : Tracks window table uses since) (htime : since ≤ time)
    (hstale : ¬ Fresh window table key time) :
    Tracks window table (.asks key time :: uses) time where
  past := by
    intro other used hused
    have := h.past other used hused
    omega
  kept := by
    intro other now hnow
    rw [kept_asks_iff, ← h.kept other now (by omega), ← h.kept other time htime]
    constructor
    · exact .inr
    · rintro (⟨rfl, hfresh, -⟩ | hold)
      · exact absurd hfresh hstale
      · exact hold

theorem Tracks.later (h : Tracks window table uses since) (htime : since ≤ time) :
    Tracks window table uses time where
  past := by
    intro key used hused
    have := h.past key used hused
    omega
  kept := fun key now hnow => h.kept key now (by omega)

/-- Times that are out of the window may be forgotten. -/
theorem Tracks.forget {kept : κ → Option Nat} (h : Tracks window table uses since)
    (hkept : ∀ key, kept key = table key
      ∨ kept key = none ∧ ¬ Fresh window table key since) :
    Tracks window kept uses since where
  past := by
    intro key used hused
    rcases hkept key with hsame | ⟨hnone, -⟩
    · exact h.past key used (hsame ▸ hused)
    · rw [hnone] at hused
      cases hused
  kept := by
    intro key now hnow
    rw [← h.kept key now hnow]
    rcases hkept key with hsame | ⟨hnone, hstale⟩
    · rw [Fresh, Fresh, hsame]
    · -- what was out of the window then is still
      have hlost : ¬ Fresh window table key now := by
        rintro ⟨used, hused, hle⟩
        exact hstale ⟨used, hused, by omega⟩
      simp [Fresh, hnone] at hlost ⊢
      exact hlost

end

section
variable {κ : Type*} [DecidableEq κ] {window since time now : Nat} {key other : κ}
  {uses : List (Use κ)} {table : κ → Option Nat}

theorem fresh_update :
    Fresh window (Function.update table other (some time)) key now
      ↔ (key = other ∧ now ≤ time + window) ∨ (key ≠ other ∧ Fresh window table key now) := by
  by_cases h : key = other
  · subst h
    simp [Fresh]
  · simp [Fresh, h]

theorem Tracks.past_update (h : Tracks window table uses since) (htime : since ≤ time)
    (key other : κ) (used : Nat) (hused : Function.update table other (some time) key = some used) :
    used ≤ time := by
  by_cases hkey : key = other
  · subst hkey
    simp only [Function.update_self, Option.some.injEq] at hused
    omega
  · rw [Function.update_of_ne hkey] at hused
    have := h.past key used hused
    omega

theorem Tracks.opens (h : Tracks window table uses since) (htime : since ≤ time) (key : κ) :
    Tracks window (Function.update table key (some time)) (.opens key time :: uses) time where
  past := fun other => h.past_update htime other key
  kept := by
    intro other now hnow
    rw [fresh_update, kept_opens_iff, ← h.kept other now (by omega)]
    constructor
    · rintro (hnew | ⟨-, hold⟩)
      · exact .inl hnew
      · exact .inr hold
    · rintro (hnew | hold)
      · exact .inl hnew
      · by_cases hkey : other = key
        · exact .inl ⟨hkey, h.fresh_le htime hold⟩
        · exact .inr ⟨hkey, hold⟩

theorem Tracks.asks_fresh (h : Tracks window table uses since) (htime : since ≤ time)
    (hfresh : Fresh window table key time) :
    Tracks window (Function.update table key (some time)) (.asks key time :: uses) time where
  past := fun other => h.past_update htime other key
  kept := by
    intro other now hnow
    rw [fresh_update, kept_asks_iff, ← h.kept other now (by omega), ← h.kept other time htime]
    constructor
    · rintro (⟨rfl, hnew⟩ | ⟨-, hold⟩)
      · exact .inl ⟨rfl, hfresh, hnew⟩
      · exact .inr hold
    · rintro (⟨hkey, -, hnew⟩ | hold)
      · exact .inl ⟨hkey, hnew⟩
      · by_cases hkey : other = key
        · exact .inl ⟨hkey, h.fresh_le htime hold⟩
        · exact .inr ⟨hkey, hold⟩

end

end IdleWindow

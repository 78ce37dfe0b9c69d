import Mathlib.Data.Set.Insert

/-!
# Durable

A store that others can read at once but that is kept only when it is flushed:
beside what it holds now, what each key may hold after the power was lost. The
invariants of such a store are about both.
-/

namespace Durable

variable {σ κ ν : Type*} {look : σ → κ → Option ν}

/-- What the store holds now is among what may be left of it. -/
structure Medium (look : σ → κ → Option ν) where
  now : σ
  left : κ → Set (Option ν)
  here : ∀ k, look now k ∈ left k

/-- The store was changed, and the change may be lost again. -/
def Medium.write (disk : Medium look) (after : σ) : Medium look where
  now := after
  left := fun k => insert (look after k) (disk.left k)
  here := fun _ => Set.mem_insert _ _

/-- The store was changed and flushed. -/
def Medium.sync (look : σ → κ → Option ν) (after : σ) : Medium look where
  now := after
  left := fun k => {look after k}
  here := fun _ => Set.mem_singleton _

/-- This may be left when the power is lost, as far as some keys go. -/
def Medium.Leaves (disk : Medium look) (kept : κ → Prop) (after : σ) : Prop :=
  ∀ k, kept k → look after k ∈ disk.left k

/-- It holds of what a key holds and of all that may be left of it. -/
def Medium.Always (disk : Medium look) (P : κ → Option ν → Prop) : Prop :=
  ∀ k, ∀ c ∈ disk.left k, P k c

variable {disk : Medium look} {P Q : κ → Option ν → Prop} {kept : κ → Prop} {after : σ}

theorem Medium.Always.now (h : disk.Always P) (k : κ) : P k (look disk.now k) :=
  h k _ (disk.here k)

theorem Medium.Always.mono (h : disk.Always P) (hweaker : ∀ k c, P k c → Q k c) : disk.Always Q :=
  fun k c hc => hweaker k c (h k c hc)

theorem Medium.Always.write (h : disk.Always P) (hafter : ∀ k, P k (look after k)) :
    (disk.write after).Always P := by
  intro k c hc
  rcases Set.mem_insert_iff.mp hc with rfl | hold
  · exact hafter k
  · exact h k c hold

theorem Medium.always_sync (hafter : ∀ k, P k (look after k)) : (Medium.sync look after).Always P := by
  intro k c hc
  rw [Set.mem_singleton_iff.mp hc]
  exact hafter k

/-- A store that was left by a loss of power meets what the one before met. -/
theorem Medium.Always.leaves (h : disk.Always P) (hafter : disk.Leaves kept after)
    (hothers : ∀ k c, ¬ kept k → P k c) : (Medium.sync look after).Always P := by
  apply Medium.always_sync
  intro k
  by_cases hkept : kept k
  · exact h k _ (hafter k hkept)
  · exact hothers k _ hkept

end Durable

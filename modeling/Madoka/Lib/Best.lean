import Mathlib

/-!
# Best

The least of a set of offers, with `⊤` for none: how it changes when an offer
is added, and that it is determined by the set.
-/

variable {α : Type} [LinearOrder α]

/-- `e` is the least of the offers, or `⊤` when there are none. -/
structure Best (offers : Set α) (e : WithTop α) : Prop where
  le : ∀ a ∈ offers, e ≤ a
  mem : ∀ a : α, e = a → a ∈ offers

namespace Best

theorem empty : Best (∅ : Set α) ⊤ where
  le _ h := absurd h (Set.notMem_empty _)
  mem _ h := absurd h (WithTop.top_ne_coe)

theorem unique {offers : Set α} {e e' : WithTop α} (h : Best offers e) (h' : Best offers e') :
    e = e' := by
  have key : ∀ {e e' : WithTop α}, Best offers e → Best offers e' → e ≤ e' := by
    intro e e' h h'
    cases e' with
    | top => exact le_top
    | coe a => exact h.le a (h'.mem a rfl)
  exact le_antisymm (key h h') (key h' h)

/-- One more offer. -/
theorem insert {offers : Set α} {e : WithTop α} (h : Best offers e) (a : α) :
    Best (Insert.insert a offers) (min e a) where
  le b hb := by
    rcases Set.mem_insert_iff.mp hb with rfl | hb
    · exact min_le_right _ _
    · exact (min_le_left _ _).trans (h.le b hb)
  mem b hb := by
    rcases min_choice e a with he | ha
    · rw [he] at hb
      exact Set.mem_insert_of_mem _ (h.mem b hb)
    · rw [ha, WithTop.coe_inj] at hb
      exact Set.mem_insert_iff.mpr (.inl hb.symm)

end Best

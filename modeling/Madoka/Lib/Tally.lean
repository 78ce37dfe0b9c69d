import Mathlib

/-!
# Tally

Counters that go up by events, one at a time: what a list of events does to
them, and when exactly one of a group of counters has gone up, by one.
-/

namespace Tally

variable {γ : Type} [DecidableEq γ]

/-- The counters after some events, whatever their order. -/
def Tallied (before : γ → Nat) (events : List γ) (after : γ → Nat) : Prop :=
  ∀ c, after c = before c + events.count c

/-- Exactly one counter of the group has gone up, and that by one. -/
def OnceAmong (group : γ → Bool) (before after : γ → Nat) : Prop :=
  ∃ c, group c = true ∧ after c = before c + 1 ∧ ∀ d, group d = true → d ≠ c → after d = before d

variable {before middle after : γ → Nat} {events more : List γ}

theorem Tallied.refl (before : γ → Nat) : Tallied before [] before :=
  fun _ => rfl

theorem Tallied.one (before : γ → Nat) (c : γ) :
    Tallied before [c] (Function.update before c (before c + 1)) := by
  intro d
  by_cases hd : d = c
  · subst hd
    rw [Function.update_self, List.count_singleton_self]
  · rw [Function.update_of_ne hd, List.count_singleton, if_neg (by simpa using Ne.symm hd)]
    rfl

theorem Tallied.trans (h : Tallied before events middle) (h' : Tallied middle more after) :
    Tallied before (events ++ more) after := by
  intro c
  rw [h' c, h c, List.count_append]
  omega

/-- Exactly one counter of the group goes up by one when exactly one of the
events counts there. -/
theorem onceAmong_iff {group : γ → Bool} (h : Tallied before events after) :
    OnceAmong group before after ↔ (events.filter group).length = 1 := by
  have hcount : ∀ c, group c = true → (events.filter group).count c = events.count c :=
    fun c hc => List.count_filter hc
  constructor
  · rintro ⟨c, hc, hone, hothers⟩
    have hall : ∀ d ∈ events.filter group, d = c := by
      intro d hd
      by_contra hne
      have hgroup := (List.mem_filter.mp hd).2
      have hsame := hothers d hgroup hne
      have hpos := List.count_pos_iff.mpr (List.mem_filter.mp hd).1
      rw [h d] at hsame
      omega
    have hlength := List.count_eq_length.mpr fun d hd => (hall d hd).symm
    rw [hcount c hc] at hlength
    have hafter := h c
    omega
  · intro hlength
    obtain ⟨c, hc⟩ := List.length_eq_one_iff.mp hlength
    have hmem : c ∈ events.filter group := by rw [hc]; exact List.mem_singleton_self c
    have hgroup := (List.mem_filter.mp hmem).2
    refine ⟨c, hgroup, ?_, fun d hd hne => ?_⟩
    · rw [h c, ← hcount c hgroup, hc, List.count_singleton_self]
    · rw [h d, ← hcount d hd, hc, List.count_singleton, if_neg (by simpa using Ne.symm hne)]
      rfl

end Tally

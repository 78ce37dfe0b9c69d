import Mathlib

/-!
# Recency

Lists kept in the order in which their members were last heard of, the one
silent for longest at the front: what hearing of a member, of a stranger, and
dropping members do to the order, over any log of who was heard of.
-/

namespace Recency

variable {κ : Type} [DecidableEq κ]

/-- The members occur in the log, each once here, in the order of their last
occurrences there. -/
def Ordered (log members : List κ) : Prop :=
  members.Sublist log.dedup

/-- Since the log last mentions the member, it mentions each of the others. -/
def LongestSilent (log : List κ) (member : κ) (others : List κ) : Prop :=
  ∃ before after, log = before ++ member :: after ∧ member ∉ after ∧ ∀ other ∈ others, other ∈ after

theorem dedup_concat (log : List κ) (k : κ) :
    (log ++ [k]).dedup = (log.dedup.filter fun m => m ≠ k) ++ [k] := by
  induction log with
  | nil => simp
  | cons m log ih =>
      rw [List.cons_append]
      by_cases hmem : m ∈ log
      · rw [List.dedup_cons_of_mem (List.mem_append_left _ hmem), List.dedup_cons_of_mem hmem, ih]
      · rw [List.dedup_cons_of_notMem hmem]
        by_cases hk : m = k
        · subst hk
          rw [List.dedup_cons_of_mem (by simp), ih, List.filter_cons_of_neg (by simp)]
        · rw [List.dedup_cons_of_notMem (by simp [hmem, hk]), ih,
            List.filter_cons_of_pos (by simpa using hk), List.cons_append]

/-- Taking a stranger out takes nothing out. -/
theorem filter_ne_self {members : List κ} {k : κ} (hk : k ∉ members) :
    (members.filter fun m => m ≠ k) = members := by
  refine List.filter_eq_self.mpr fun m hm => decide_eq_true ?_
  rintro rfl
  exact hk hm

theorem ordered_nil (log : List κ) : Ordered log [] :=
  List.nil_sublist _

variable {log members : List κ}

theorem Ordered.nodup (h : Ordered log members) : members.Nodup :=
  (List.nodup_dedup log).sublist h

/-- Dropping members keeps the order of the others. -/
theorem Ordered.of_sublist {rest : List κ} (h : Ordered log members)
    (hrest : rest.Sublist members) : Ordered log rest :=
  hrest.trans h

/-- A member heard of moves to the back, a stranger is put there. -/
theorem Ordered.touch (h : Ordered log members) (k : κ) :
    Ordered (log ++ [k]) ((members.filter fun m => m ≠ k) ++ [k]) := by
  rw [Ordered, dedup_concat]
  exact (h.filter _).append (List.Sublist.refl _)

/-- Hearing of a stranger leaves the order alone. -/
theorem Ordered.stranger {k : κ} (h : Ordered log members) (hk : k ∉ members) :
    Ordered (log ++ [k]) members := by
  have hboth := h.touch k
  rw [filter_ne_self hk] at hboth
  exact hboth.of_sublist (List.sublist_append_left _ _)

/-- Hearing of several strangers leaves the order alone. -/
theorem Ordered.strangers {ks : List κ} (h : Ordered log members) (hks : ∀ k ∈ ks, k ∉ members) :
    Ordered (log ++ ks) members := by
  induction ks generalizing log with
  | nil =>
      rw [List.append_nil]
      exact h
  | cons k ks ih =>
      have hrest := ih (h.stranger (hks k List.mem_cons_self))
        fun m hm => hks m (List.mem_cons_of_mem k hm)
      rwa [List.append_assoc] at hrest

/-- The member at the front has been silent for longest. -/
theorem Ordered.front {k : κ} (h : Ordered log (k :: members)) : LongestSilent log k members := by
  induction log with
  | nil =>
      rw [Ordered, List.dedup_nil] at h
      cases h
  | cons m log ih =>
      have hlater : Ordered log (k :: members) → LongestSilent (m :: log) k members := by
        intro hlog
        obtain ⟨before, after, hsplit, hk, hothers⟩ := ih hlog
        exact ⟨m :: before, after, by rw [hsplit, List.cons_append], hk, hothers⟩
      rw [Ordered] at h
      by_cases hmem : m ∈ log
      · rw [List.dedup_cons_of_mem hmem] at h
        exact hlater h
      · rw [List.dedup_cons_of_notMem hmem] at h
        cases h with
        | cons _ hlog => exact hlater hlog
        | cons_cons _ hlog =>
            -- the log's first entry is the member's last
            exact ⟨[], log, rfl, hmem, fun other hother =>
              List.mem_dedup.mp (hlog.subset hother)⟩

end Recency

import Madoka.Lib.Best

/-!
# Distance Vector

Synchronous distance-vector routing on a graph, with poison reverse and a
bound on the metric: in each round a node takes, for every destination, the
least of the offers of its neighbours. Whatever the first tables hold, after
as many rounds as the bound every table is that of the shortest paths.
-/

namespace DistanceVector

open SimpleGraph

/-! ## Distances -/

section
variable {V : Type} {G : SimpleGraph V}

/-- A reachable node has a neighbour that is one step closer. -/
theorem exists_closer {u dest : V} (hne : u ≠ dest) (hreach : G.Reachable u dest) :
    ∃ v, G.Adj u v ∧ G.Reachable v dest ∧ G.dist v dest + 1 = G.dist u dest := by
  obtain ⟨p, hp⟩ := hreach.exists_walk_length_eq_dist
  cases p with
  | nil => exact absurd rfl hne
  | @cons _ v _ hadj q =>
      have hq : G.dist v dest ≤ q.length := dist_le q
      obtain ⟨q', hq'⟩ := q.reachable.exists_walk_length_eq_dist
      have hu : G.dist u dest ≤ (Walk.cons hadj q').length := dist_le _
      rw [Walk.length_cons] at hp hu
      exact ⟨v, hadj, q.reachable, by omega⟩

theorem dist_le_succ {u v dest : V} (hadj : G.Adj u v) (hreach : G.Reachable v dest) :
    G.dist u dest ≤ G.dist v dest + 1 := by
  obtain ⟨q, hq⟩ := hreach.exists_walk_length_eq_dist
  have hu : G.dist u dest ≤ (Walk.cons hadj q).length := dist_le _
  rwa [Walk.length_cons, hq] at hu

/-- In a graph on finitely many nodes a distance is below their number. -/
theorem dist_lt_card [DecidableEq V] {nodes : Finset V} (hnodes : ∀ u v, G.Adj u v → u ∈ nodes)
    {u v : V} (hu : u ∈ nodes) (hreach : G.Reachable u v) : G.dist u v < nodes.card := by
  obtain ⟨p, hpath, hlen⟩ := hreach.exists_path_of_dist
  have hwalk : ∀ {a b : V} (q : G.Walk a b), a ∈ nodes → ∀ w ∈ q.support, w ∈ nodes := by
    intro a b q
    induction q with
    | nil =>
        intro ha w hw
        rw [Walk.support_nil, List.mem_singleton] at hw
        rw [hw]
        exact ha
    | @cons _ c _ hadj q ih =>
        intro ha w hw
        rw [Walk.support_cons] at hw
        rcases List.mem_cons.mp hw with rfl | hw
        · exact ha
        · exact ih (hnodes c _ hadj.symm) w hw
  have hsub : p.support.toFinset ⊆ nodes :=
    fun w hw => hwalk p hu w (List.mem_toFinset.mp hw)
  have hcard := Finset.card_le_card hsub
  rw [List.toFinset_card_of_nodup hpath.support_nodup, Walk.length_support, hlen] at hcard
  omega

end

/-! ## Offers -/

/-- A metric and a next hop; the metric counts first. -/
abbrev Offer (V : Type) := ℕ ×ₗ V

section
variable {V : Type}

def offer (metric : ℕ) (hop : V) : Offer V :=
  toLex (metric, hop)

theorem offer_inj {m m' : ℕ} {v v' : V} : offer m v = offer m' v' ↔ m = m' ∧ v = v' := by
  simp [offer]

theorem offer_surj (c : Offer V) : ∃ m v, c = offer m v :=
  ⟨c.1, c.2, rfl⟩

theorem offer_le [LinearOrder V] {m m' : ℕ} {v v' : V} :
    offer m v ≤ offer m' v' ↔ m < m' ∨ m = m' ∧ v ≤ v' :=
  Prod.Lex.le_iff

end

section
variable {V : Type} (G : SimpleGraph V)

/-- The distance, over each neighbour that is one step closer. -/
def shortest (u dest : V) : Set (Offer V) :=
  {c | ∃ v, G.Adj u v ∧ G.Reachable v dest ∧ G.dist v dest + 1 = G.dist u dest
    ∧ c = offer (G.dist u dest) v}

variable {G}

theorem shortest_eq_empty {u dest : V} (h : ¬ G.Reachable u dest) : shortest G u dest = ∅ := by
  refine Set.eq_empty_of_forall_notMem fun c hc => h ?_
  obtain ⟨v, hadj, hreach, -⟩ := hc
  exact hadj.reachable.trans hreach

end

/-! ## Convergence -/

variable {V : Type} [LinearOrder V] (G : SimpleGraph V) (infinity : ℕ)

/-- For each node and destination an offer, or nothing. -/
abbrev Table (V : Type) := V → V → WithTop (Offer V)

/-- What a node is offered for a destination: a direct link, and the entries
of its neighbours, except those that lead back to it. -/
def offers (T : Table V) (u dest : V) : Set (Offer V) :=
  {c | (G.Adj u dest ∧ c = offer 1 dest)
    ∨ ∃ v m h, G.Adj u v ∧ v ≠ dest ∧ T v dest = offer m h ∧ h ≠ u ∧ m + 1 < infinity
      ∧ c = offer (m + 1) v}

/-- A sequence of tables, each made from the one before. Of the first nothing
is known but that no metric is zero. -/
structure Rounds (T : ℕ → Table V) : Prop where
  first : ∀ (u dest : V) (m : ℕ) (h : V), u ≠ dest → T 0 u dest = offer m h → 1 ≤ m
  next : ∀ r u dest, u ≠ dest → Best (offers G infinity (T r) u dest) (T (r + 1) u dest)

variable {G infinity}

section
variable {T : ℕ → Table V}

/-- Stale entries grow: what a table of round `r` says is at least `r + 1`, or
as long as some walk. -/
theorem Rounds.lower (h : Rounds G infinity T) (r : ℕ) {u dest : V} (hne : u ≠ dest) {m : ℕ}
    {hop : V} (hentry : T r u dest = offer m hop) :
    r + 1 ≤ m ∨ ∃ p : G.Walk u dest, p.length ≤ m := by
  induction r generalizing u m hop with
  | zero => exact .inl (h.first u dest m hop hne hentry)
  | succ r ih =>
      rcases (h.next r u dest hne).mem _ hentry with
        ⟨hadj, heq⟩ | ⟨v, m', hop', hadj, hv, hentry', -, -, heq⟩
      · obtain ⟨rfl, -⟩ := offer_inj.mp heq
        exact .inr ⟨hadj.toWalk, le_rfl⟩
      · obtain ⟨rfl, -⟩ := offer_inj.mp heq
        rcases ih hv hentry' with hlarge | ⟨p, hp⟩
        · exact .inl (by omega)
        · exact .inr ⟨.cons hadj p, by rw [Walk.length_cons]; omega⟩

/-- Destinations at most `r` away are right from round `r` on: their offers
come from nodes that are right already, and these do not lead back. -/
theorem Rounds.exact (h : Rounds G infinity T) (r : ℕ) {u dest : V} (hne : u ≠ dest)
    (hreach : G.Reachable u dest) (hnear : G.dist u dest ≤ r)
    (hbound : G.dist u dest < infinity) : Best (shortest G u dest) (T r u dest) := by
  induction r generalizing u with
  | zero =>
      have hpos := hreach.pos_dist_of_ne hne
      omega
  | succ r ih =>
      have hbest := h.next r u dest hne
      have hoffered : ∀ c ∈ shortest G u dest, c ∈ offers G infinity (T r) u dest := by
        rintro c ⟨v, hadj, hv, hdist, rfl⟩
        by_cases hvd : v = dest
        · subst hvd
          rw [dist_self] at hdist
          rw [← hdist]
          exact .inl ⟨hadj, rfl⟩
        · obtain ⟨w, hw, hwreach, hwdist⟩ := exists_closer hvd hv
          have hentry := ih hvd hv (by omega) (by omega)
          cases hT : T r v dest with
          | top =>
              have hle := hentry.le _ ⟨w, hw, hwreach, hwdist, rfl⟩
              rw [hT, top_le_iff] at hle
              exact absurd hle WithTop.coe_ne_top
          | coe a =>
              obtain ⟨w', -, -, hback, rfl⟩ := hentry.mem a hT
              refine .inr ⟨v, G.dist v dest, w', hadj, hvd, hT, ?_, by omega, by rw [hdist]⟩
              rintro rfl
              omega
      obtain ⟨v, hv⟩ := exists_closer hne hreach
      refine ⟨fun c hc => hbest.le c (hoffered c hc), fun c hc => ?_⟩
      obtain ⟨m, hop, rfl⟩ := offer_surj c
      -- no metric is above the distance, and below round `r + 2` none is under it
      have hle : m ≤ G.dist u dest := by
        have hc' := hbest.le _ (hoffered _ ⟨v, hv.1, hv.2.1, hv.2.2, rfl⟩)
        rw [hc, WithTop.coe_le_coe] at hc'
        rcases offer_le.mp hc' with hlt | ⟨heq, -⟩
        · exact hlt.le
        · exact heq.le
      rcases hbest.mem _ hc with ⟨hadj, heq⟩ | ⟨v', m', hop', hadj, hv', hentry', -, -, heq⟩
      · obtain ⟨rfl, rfl⟩ := offer_inj.mp heq
        have hone : G.dist u hop = 1 := dist_eq_one_iff_adj.mpr hadj
        exact ⟨hop, hadj, .refl hop, by rw [dist_self, hone], by rw [hone]⟩
      · obtain ⟨rfl, rfl⟩ := offer_inj.mp heq
        rcases h.lower r hv' hentry' with hlarge | ⟨p, hp⟩
        · omega
        · have hdist := dist_le p
          have hstep := dist_le_succ hadj p.reachable
          have heq' : m' + 1 = G.dist u dest := by omega
          exact ⟨hop, hadj, p.reachable, by omega, by rw [← heq']⟩

/-- After `infinity` rounds every entry is a shortest one, and there is none
for a destination out of reach. -/
theorem Rounds.converged (h : Rounds G infinity T) (hfinite : 1 < infinity)
    (hbound : ∀ u dest, G.Reachable u dest → G.dist u dest < infinity) {r : ℕ}
    (hr : infinity ≤ r + 1) {u dest : V} (hne : u ≠ dest) :
    Best (shortest G u dest) (T r u dest) := by
  by_cases hreach : G.Reachable u dest
  · have hnear := hbound u dest hreach
    exact h.exact r hne hreach (by omega) hnear
  · rw [shortest_eq_empty hreach]
    cases hT : T r u dest with
    | top => exact .empty
    | coe a =>
        obtain ⟨m, hop, rfl⟩ := offer_surj a
        exfalso
        have hsmall : m < infinity := by
          obtain ⟨r, rfl⟩ : ∃ n, r = n + 1 := ⟨r - 1, by omega⟩
          rcases (h.next r u dest hne).mem _ hT with ⟨-, heq⟩ | ⟨_, _, _, -, -, -, -, hm, heq⟩
          · obtain ⟨rfl, -⟩ := offer_inj.mp heq
            exact hfinite
          · obtain ⟨rfl, -⟩ := offer_inj.mp heq
            exact hm
        rcases h.lower r hne hT with hlarge | ⟨p, -⟩
        · omega
        · exact hreach p.reachable

end

end DistanceVector

import Madoka.Lib.DistanceVector

/-!
# Asynchronous Vector

Distance-vector routing without rounds: the nodes tell each other their tables
at any time, and what is told arrives in any order. How far a table can be
trusted is a level; what is told of tables of one level makes a table of the
next, and no single update takes a level away.
-/

namespace DistanceVector

open SimpleGraph

/-! ## Levels -/

section
variable {V : Type} (G : SimpleGraph V)

/-- Of the destinations and metrics that `v` tells `u`, those below the level
are as long as some walk, and destinations that are nearer than the level, and
nearer to `v` than to `u`, are told as they are. -/
structure Told (level : ℕ) (u v : V) (told : Set (V × ℕ)) : Prop where
  lower : ∀ (dest : V) (m : ℕ), dest ≠ v → (dest, m) ∈ told →
    level ≤ m ∨ ∃ p : G.Walk v dest, p.length ≤ m
  near : ∀ dest, dest ≠ v → G.Reachable v dest → G.dist v dest < level →
    G.dist v dest + 1 = G.dist u dest → (dest, G.dist v dest) ∈ told

variable {G} {u v : V} {told : Set (V × ℕ)}

theorem told_zero : Told G 0 u v told where
  lower _ m _ _ := .inl (Nat.zero_le m)
  near _ _ _ hnear := absurd hnear (Nat.not_lt_zero _)

end

variable {V : Type} [LinearOrder V] (G : SimpleGraph V) (infinity : ℕ)

/-- The entries of `u` below the level are as long as some walk, and those of
destinations that are nearer than the level are right. -/
structure Right (level : ℕ) (u : V) (entry : V → WithTop (Offer V)) : Prop where
  lower : ∀ (dest : V) (m : ℕ) (hop : V), dest ≠ u → entry dest = offer m hop →
    level ≤ m ∨ ∃ p : G.Walk u dest, p.length ≤ m
  exact : ∀ dest, dest ≠ u → G.Reachable u dest → G.dist u dest < level →
    Best (shortest G u dest) (entry dest)

/-- What `u` is offered for a destination: a direct link, and what its
neighbours have told it. -/
def heard (told : V → Set (V × ℕ)) (u dest : V) : Set (Offer V) :=
  {c | (G.Adj u dest ∧ c = offer 1 dest)
    ∨ ∃ v m, G.Adj u v ∧ v ≠ dest ∧ (dest, m) ∈ told v ∧ m + 1 < infinity
      ∧ c = offer (m + 1) v}

/-- A table takes in what `n` tells: routes over `n` are those it tells, and
another route stays or gives way to a better one. -/
structure TakesIn (n : V) (told : Set (V × ℕ)) (before after : V → WithTop (Offer V)) : Prop where
  via : ∀ (dest : V) (m : ℕ), dest ≠ n → after dest = offer m n →
    ∃ k, (dest, k) ∈ told ∧ m = min infinity (k + 1)
  others : ∀ (dest : V) (m : ℕ) (hop : V), after dest = offer m hop → hop ≠ n ∨ dest = n →
    before dest = offer m hop
  better : ∀ (dest : V) (m : ℕ) (hop : V), before dest = offer m hop → hop ≠ n → after dest = offer m hop
    ∨ ∃ m' : ℕ, after dest = offer m' n ∧ (m' < m ∨ m' = m ∧ n < hop)
  direct : ∀ (m : ℕ) (hop : V), before n = offer m hop → after n = offer m hop
  kept : ∀ (dest : V) (m k : ℕ), before dest = offer m n → (dest, k) ∈ told → after dest ≠ ⊤

variable {G infinity} {level level' : ℕ} {u v n dest : V} {entry : V → WithTop (Offer V)}
  {told : Set (V × ℕ)}

theorem right_zero : Right G 0 u entry where
  lower _ m _ _ _ := .inl (Nat.zero_le m)
  exact _ _ _ hnear := absurd hnear (Nat.not_lt_zero _)

theorem Right.mono (h : Right G level u entry) (hle : level' ≤ level) : Right G level' u entry where
  lower dest m hop hne hentry := (h.lower dest m hop hne hentry).imp_left hle.trans
  exact dest hne hreach hnear := h.exact dest hne hreach (hnear.trans_le hle)

/-- An entry that is right is the distance, over a neighbour that is closer. -/
theorem Right.entry_eq (h : Right G level u entry) (hne : dest ≠ u) (hreach : G.Reachable u dest)
    (hnear : G.dist u dest < level) :
    ∃ hop : V, entry dest = offer (G.dist u dest) hop ∧ G.Adj u hop ∧ G.Reachable hop dest
      ∧ G.dist hop dest + 1 = G.dist u dest
      ∧ ∀ w, G.Adj u w → G.Reachable w dest → G.dist w dest + 1 = G.dist u dest → hop ≤ w := by
  have hbest := h.exact dest hne hreach hnear
  obtain ⟨w, hw⟩ := exists_closer hne.symm hreach
  cases hentry : entry dest with
  | top =>
      have hle := hbest.le _ ⟨w, hw.1, hw.2.1, hw.2.2, rfl⟩
      rw [hentry, top_le_iff] at hle
      exact absurd hle WithTop.coe_ne_top
  | coe a =>
      obtain ⟨hop, hadj, hr, hd, rfl⟩ := hbest.mem a hentry
      refine ⟨hop, rfl, hadj, hr, hd, fun w' hadj' hr' hd' => ?_⟩
      have hle := hbest.le _ ⟨w', hadj', hr', hd', rfl⟩
      rw [hentry, WithTop.coe_le_coe] at hle
      rcases offer_le.mp hle with hlt | ⟨-, hle⟩
      · exact absurd hlt (lt_irrefl _)
      · exact hle

/-! ## Telling -/

/-- A table of some level is told as such, with the routes that lead back to
the listener at infinity. -/
theorem Right.tells (h : Right G level v entry) (hlevel : level ≤ infinity)
    (hfrom : ∀ (dest : V) (m : ℕ), (dest, m) ∈ told →
      (∃ hop : V, entry dest = offer m hop) ∨ m = infinity)
    (hto : ∀ (dest : V) (m : ℕ) (hop : V), entry dest = offer m hop → hop ≠ u → (dest, m) ∈ told) :
    Told G level u v told where
  lower dest m hne hmem := by
    rcases hfrom dest m hmem with ⟨hop, hentry⟩ | rfl
    · exact h.lower dest m hop hne hentry
    · exact .inl hlevel
  near dest hne hreach hnear hcloser := by
    obtain ⟨hop, hentry, hadj, hr, hd, -⟩ := h.entry_eq hne hreach hnear
    refine hto dest _ hop hentry ?_
    rintro rfl
    omega

/-! ## Rebuilding -/

/-- What is told at one level makes a table of the next: a destination as far
away as the level is offered by a neighbour that is right about it, and
nothing that is told falls short of the distance. -/
theorem right_of_heard {told : V → Set (V × ℕ)} (htold : ∀ v, G.Adj u v → Told G level u v (told v))
    (hbound : ∀ dest, G.Reachable u dest → G.dist u dest < infinity)
    (hbest : ∀ dest, dest ≠ u → Best (heard G infinity told u dest) (entry dest)) :
    Right G (level + 1) u entry where
  lower dest m hop hne hentry := by
    rcases (hbest dest hne).mem _ hentry with ⟨hadj, heq⟩ | ⟨v, k, hadj, hv, hmem, -, heq⟩
    · obtain ⟨rfl, -⟩ := offer_inj.mp heq
      exact .inr ⟨hadj.toWalk, le_rfl⟩
    · obtain ⟨rfl, -⟩ := offer_inj.mp heq
      rcases (htold v hadj).lower dest k hv.symm hmem with hlarge | ⟨p, hp⟩
      · exact .inl (by omega)
      · exact .inr ⟨.cons hadj p, by rw [Walk.length_cons]; omega⟩
  exact dest hne hreach hnear := by
    have hoffered : ∀ c ∈ shortest G u dest, c ∈ heard G infinity told u dest := by
      rintro c ⟨v, hadj, hv, hdist, rfl⟩
      by_cases hvd : v = dest
      · subst hvd
        rw [dist_self] at hdist
        rw [← hdist]
        exact .inl ⟨hadj, rfl⟩
      · have hmem := (htold v hadj).near dest (Ne.symm hvd) hv (by omega) hdist
        have hfinite := hbound dest hreach
        exact .inr ⟨v, _, hadj, hvd, hmem, by omega, by rw [hdist]⟩
    obtain ⟨w, hw⟩ := exists_closer hne.symm hreach
    refine ⟨fun c hc => (hbest dest hne).le c (hoffered c hc), fun c hc => ?_⟩
    obtain ⟨m, hop, rfl⟩ := offer_surj c
    have hle : m ≤ G.dist u dest := by
      have hc' := (hbest dest hne).le _ (hoffered _ ⟨w, hw.1, hw.2.1, hw.2.2, rfl⟩)
      rw [hc, WithTop.coe_le_coe] at hc'
      rcases offer_le.mp hc' with hlt | ⟨heq, -⟩
      · exact hlt.le
      · exact heq.le
    rcases (hbest dest hne).mem _ hc with ⟨hadj, heq⟩ | ⟨v, k, hadj, hv, hmem, -, heq⟩
    · obtain ⟨rfl, rfl⟩ := offer_inj.mp heq
      have hone : G.dist u hop = 1 := dist_eq_one_iff_adj.mpr hadj
      exact ⟨hop, hadj, .refl hop, by rw [dist_self, hone], by rw [hone]⟩
    · obtain ⟨rfl, rfl⟩ := offer_inj.mp heq
      rcases (htold hop hadj).lower dest k hv.symm hmem with hlarge | ⟨p, hp⟩
      · omega
      · have hdist := dist_le p
        have hstep := dist_le_succ hadj p.reachable
        have heq' : k + 1 = G.dist u dest := by omega
        exact ⟨hop, hadj, p.reachable, by omega, by rw [← heq']⟩

/-! ## One update -/

/-- Taking in what is told at the level below keeps the level: an entry that
is right is confirmed or not beaten. -/
theorem Right.takesIn {after : V → WithTop (Offer V)} (h : Right G (level + 1) u entry)
    (htold : Told G level u n told)
    (honce : ∀ dest k k', (dest, k) ∈ told → (dest, k') ∈ told → k = k') (hadj : G.Adj u n) (hlevel : level < infinity)
    (hbound : ∀ dest, G.Reachable u dest → G.dist u dest < infinity)
    (htakes : TakesIn infinity n told entry after) : Right G (level + 1) u after where
  lower dest m hop hne hentry := by
    by_cases hother : hop ≠ n ∨ dest = n
    · exact h.lower dest m hop hne (htakes.others dest m hop hentry hother)
    · obtain ⟨rfl, hdest⟩ : hop = n ∧ dest ≠ n := by simpa [not_or] using hother
      obtain ⟨k, hmem, rfl⟩ := htakes.via dest m hdest hentry
      rcases htold.lower dest k hdest hmem with hlarge | ⟨p, hp⟩
      · exact .inl (by omega)
      · by_cases hcap : k + 1 ≤ infinity
        · exact .inr ⟨.cons hadj p, by rw [Walk.length_cons]; omega⟩
        · exact .inl (by omega)
  exact dest hne hreach hnear := by
    obtain ⟨hop, hentry, hhop, hr, hd, hleast⟩ := h.entry_eq hne hreach hnear
    have hfinite := hbound dest hreach
    -- what is told is no shorter than the distance
    have hshort : ∀ k, dest ≠ n → (dest, k) ∈ told → min infinity (k + 1) ≤ G.dist u dest →
        k + 1 = G.dist u dest ∧ G.Reachable n dest ∧ G.dist n dest + 1 = G.dist u dest := by
      intro k hdest hmem hk
      rcases htold.lower dest k hdest hmem with hlarge | ⟨p, hp⟩
      · omega
      · have hdist := dist_le p
        have hstep := dist_le_succ hadj p.reachable
        exact ⟨by omega, p.reachable, by omega⟩
    suffices hsame : after dest = entry dest by
      rw [hsame]
      exact h.exact dest hne hreach hnear
    by_cases hvia : hop = n
    · subst hvia
      by_cases hdest : dest = hop
      · subst hdest
        rw [htakes.direct _ _ hentry, hentry]
      · have hmem := htold.near dest hdest hr (by omega) hd
        cases hafter : after dest with
        | top => exact absurd hafter (htakes.kept dest _ _ hentry hmem)
        | coe a =>
            obtain ⟨m, hop', rfl⟩ := offer_surj a
            by_cases hsame : hop' = hop
            · subst hsame
              obtain ⟨k, hk, rfl⟩ := htakes.via dest m hdest hafter
              obtain rfl := honce dest k _ hk hmem
              rw [hentry, hd, min_eq_right hfinite.le]
            · have hold := htakes.others dest m hop' hafter (.inl hsame)
              rw [← hold]
    · rcases htakes.better dest _ hop hentry hvia with hsame | ⟨m', hafter, hbetter⟩
      · rw [hsame, hentry]
      · exfalso
        by_cases hdest : dest = n
        · subst hdest
          rw [htakes.direct _ _ hentry] at hafter
          obtain ⟨-, rfl⟩ := offer_inj.mp (WithTop.coe_inj.mp hafter)
          exact hvia rfl
        · obtain ⟨k, hk, rfl⟩ := htakes.via dest m' hdest hafter
          obtain ⟨hk', hn, hdn⟩ := hshort k hdest hk (by omega)
          have hle := hleast n hadj hn hdn
          rcases hbetter with hlt | ⟨-, hlt⟩
          · omega
          · exact absurd hle (not_le.mpr hlt)

end DistanceVector

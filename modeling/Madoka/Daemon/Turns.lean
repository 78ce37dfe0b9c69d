import Madoka.Daemon.RouteChoice
import Madoka.Lib.Threshold

/-!
# Turns

The rebuild looked at one destination at a time, for advertisements that may
name a destination more than once. A neighbour whose offers are no better than
what there is leaves it alone; else its last word on the destination counts,
be it better or worse.
-/

namespace Madoka

open Octets DistanceVector Threshold

/-! ## The routes of an advertisement -/

/-- The metric that a route of the neighbour gives the route it has already. -/
def statedMetric (a : Route) : Nat :=
  if 1 + a.metric < routeMetricInfinity then 1 + a.metric else routeMetricInfinity

/-- The metric stated last. -/
def lastStated (routes : List Route) (metric : Nat) : Nat :=
  routes.foldl (fun _ a => statedMetric a) metric

/-- The least offer of the routes. -/
def leastOffer (neighbor : NodeId) : List Route → WithTop (Offer NodeId)
  | [] => ⊤
  | a :: rest =>
      if 1 + a.metric < routeMetricInfinity then
        min ↑(offer (1 + a.metric) neighbor) (leastOffer neighbor rest)
      else leastOffer neighbor rest

section
variable {neighbor : NodeId} {routes : List Route}

theorem le_leastOffer {b : WithTop (Offer NodeId)} :
    b ≤ leastOffer neighbor routes ↔ ∀ a ∈ routes, 1 + a.metric < routeMetricInfinity →
      b ≤ ↑(offer (1 + a.metric) neighbor) := by
  induction routes with
  | nil => simp [leastOffer]
  | cons a rest ih =>
      by_cases hfinite : 1 + a.metric < routeMetricInfinity
      · simp [leastOffer, hfinite, ih]
      · simp [leastOffer, hfinite, ih]

theorem leastOffer_mem (h : leastOffer neighbor routes ≠ ⊤) :
    ∃ a ∈ routes, 1 + a.metric < routeMetricInfinity
      ∧ leastOffer neighbor routes = ↑(offer (1 + a.metric) neighbor) := by
  induction routes with
  | nil => exact absurd rfl h
  | cons a rest ih =>
      by_cases hfinite : 1 + a.metric < routeMetricInfinity
      · rw [leastOffer, if_pos hfinite] at h ⊢
        rcases min_choice (↑(offer (1 + a.metric) neighbor) : WithTop (Offer NodeId))
          (leastOffer neighbor rest) with hmin | hmin
        · exact ⟨a, List.mem_cons_self, hfinite, hmin⟩
        · rw [hmin] at h
          obtain ⟨b, hb, hbfinite, heq⟩ := ih h
          exact ⟨b, List.mem_cons_of_mem _ hb, hbfinite, hmin.trans heq⟩
      · rw [leastOffer, if_neg hfinite] at h ⊢
        obtain ⟨b, hb, hbfinite, heq⟩ := ih h
        exact ⟨b, List.mem_cons_of_mem _ hb, hbfinite, heq⟩

theorem lastStated_cons (a : Route) (rest : List Route) (metric : Nat) :
    lastStated (a :: rest) metric = lastStated rest (statedMetric a) :=
  rfl

theorem lastStated_mem (h : routes ≠ []) (metric : Nat) :
    ∃ a ∈ routes, lastStated routes metric = statedMetric a := by
  induction routes generalizing metric with
  | nil => exact absurd rfl h
  | cons a rest ih =>
      rw [lastStated_cons]
      cases rest with
      | nil => exact ⟨a, List.mem_cons_self, rfl⟩
      | cons b rest =>
          obtain ⟨c, hc, heq⟩ := ih (List.cons_ne_nil _ _) (statedMetric a)
          exact ⟨c, List.mem_cons_of_mem _ hc, heq⟩

/-- Where the metric starts does not matter once one is stated. -/
theorem lastStated_start (h : routes ≠ []) (metric metric' : Nat) :
    lastStated routes metric = lastStated routes metric' := by
  cases routes with
  | nil => exact absurd rfl h
  | cons a rest => rfl

theorem ne_nil_of_leastOffer (h : leastOffer neighbor routes ≠ ⊤) : routes ≠ [] := by
  rintro rfl
  exact h rfl

theorem leastOffer_le_lastStated (h : leastOffer neighbor routes ≠ ⊤) :
    leastOffer neighbor routes ≤ ↑(offer (lastStated routes 0) neighbor) := by
  obtain ⟨a, ha, hlast⟩ := lastStated_mem (ne_nil_of_leastOffer h) 0
  rw [hlast, statedMetric]
  by_cases hfinite : 1 + a.metric < routeMetricInfinity
  · rw [if_pos hfinite]
    exact le_leastOffer.mp le_rfl a ha hfinite
  · rw [if_neg hfinite]
    obtain ⟨b, -, hb, heq⟩ := leastOffer_mem h
    rw [heq]
    exact WithTop.coe_le_coe.mpr (offer_le.mpr (.inl hb))

variable (neighbor routes) in
/-- The routes of a neighbour for one destination, as a turn. -/
def routesTurn : Turn (WithTop (Offer NodeId)) where
  bound := leastOffer neighbor routes
  result :=
    if leastOffer neighbor routes = ⊤ then ⊤ else ↑(offer (lastStated routes 0) neighbor)
  bound_le := by
    split
    · exact le_top
    · next h => exact leastOffer_le_lastStated h

theorem routesTurn_result (h : leastOffer neighbor routes ≠ ⊤) :
    (routesTurn neighbor routes).result = ↑(offer (lastStated routes 0) neighbor) :=
  if_neg h

/-- Routes that all state one metric. -/
theorem routesTurn_same {metric : Nat} (hne : routes ≠ []) (hfinite : metric < routeMetricInfinity)
    (hsame : ∀ a ∈ routes, 1 + a.metric = metric) :
    (routesTurn neighbor routes).bound = ↑(offer metric neighbor)
      ∧ (routesTurn neighbor routes).result = ↑(offer metric neighbor) := by
  have hbound : leastOffer neighbor routes = ↑(offer metric neighbor) := by
    refine le_antisymm ?_ (le_leastOffer.mpr fun a ha _ => by rw [hsame a ha])
    obtain ⟨a, ha⟩ := List.exists_mem_of_ne_nil routes hne
    have hle := le_leastOffer.mp (le_refl (leastOffer neighbor routes)) a ha (hsame a ha ▸ hfinite)
    rwa [hsame a ha] at hle
  have hfound : leastOffer neighbor routes ≠ ⊤ := by
    rw [hbound]
    exact WithTop.coe_ne_top
  refine ⟨hbound, ?_⟩
  obtain ⟨a, ha, hlast⟩ := lastStated_mem hne 0
  rw [routesTurn_result hfound, hlast, statedMetric, hsame a ha, if_pos hfinite]

/-- A single route states what it offers. -/
theorem routesTurn_plain (h : routes = [] ∨ ∃ a, routes = [a]) :
    (routesTurn neighbor routes).result = (routesTurn neighbor routes).bound := by
  rcases h with rfl | ⟨a, rfl⟩
  · rfl
  · by_cases hfinite : 1 + a.metric < routeMetricInfinity
    · obtain ⟨hbound, hresult⟩ := @routesTurn_same neighbor [a] _
        (List.cons_ne_nil a []) hfinite (by simp)
      rw [hbound, hresult]
    · simp [routesTurn, leastOffer, hfinite]

end

/-! ## Meeting the route there is -/

section
variable {neighbor : NodeId} {currentTime : Nat}

/-- The neighbour's own route takes every metric that is stated. -/
theorem meetExisting_own {a existing : Route} (h : existing.nextHop = neighbor) :
    (meetExisting neighbor currentTime 1 a existing).1.nextHop = neighbor
      ∧ (meetExisting neighbor currentTime 1 a existing).1.metric = statedMetric a := by
  subst h
  unfold meetExisting statedMetric
  split_ifs with hfinite
  · simp only [replaceRoute, offeredRoute, routeCreate]
    split_ifs with htaken hchanged
    · exact ⟨rfl, rfl⟩
    · simp only [not_or, not_not] at hchanged
      exact ⟨rfl, hchanged.2.2.2⟩
    · simp at htaken
  · simp only [poisonRoute, true_and]
    split_ifs with hpoison
    · exact ⟨rfl, rfl⟩
    · exact ⟨rfl, not_not.mp hpoison⟩

theorem foldl_meetRoute_own {routes : List Route} {existing : Route}
    (h : existing.nextHop = neighbor) :
    entryOffer (routes.foldl (fun e a => (meetRoute neighbor currentTime 1 a e).1) (some existing))
      = ↑(offer (lastStated routes existing.metric) neighbor) := by
  induction routes generalizing existing with
  | nil => exact congrArg _ (offer_inj.mpr ⟨rfl, h⟩)
  | cons a rest ih =>
      obtain ⟨hhop, hmetric⟩ := @meetExisting_own neighbor currentTime a existing h
      rw [List.foldl_cons, lastStated_cons, ← hmetric]
      exact ih hhop

/-- A route that leads elsewhere stays when it is no worse, or when the
destination is given as unreachable. -/
theorem meetRoute_keeps {a existing : Route} (hother : existing.nextHop ≠ neighbor)
    (hle : 1 + a.metric < routeMetricInfinity →
      routeOffer existing ≤ offer (1 + a.metric) neighbor) :
    (meetRoute neighbor currentTime 1 a (some existing)).1 = some existing := by
  by_cases hfinite : 1 + a.metric < routeMetricInfinity
  · have hnot : ¬ (1 + a.metric < existing.metric
        ∨ 1 + a.metric = existing.metric ∧ neighbor < existing.nextHop
        ∨ existing.nextHop = neighbor) := by
      rintro (h | ⟨h, hhop⟩ | h)
      · rcases offer_le.mp (hle hfinite) with hlt | ⟨heq, -⟩
        · exact absurd h hlt.not_gt
        · exact absurd h heq.not_gt
      · rcases offer_le.mp (hle hfinite) with hlt | ⟨-, hle⟩
        · exact absurd h hlt.ne'
        · exact absurd hhop hle.not_gt
      · exact hother h
    have hkept : replaceRoute neighbor currentTime (offeredRoute neighbor currentTime 1 a) existing
        = (existing, false) := if_neg hnot
    simp [meetRoute, meetExisting, hfinite, hkept]
  · simp [meetRoute, meetExisting, hfinite, poisonRoute, hother]

/-- A better route takes over. -/
theorem meetRoute_takes {a : Route} {existing : Option Route}
    (hother : ∀ r, existing = some r → r.nextHop ≠ neighbor)
    (hfinite : 1 + a.metric < routeMetricInfinity)
    (hlt : ↑(offer (1 + a.metric) neighbor) < entryOffer existing) :
    (meetRoute neighbor currentTime 1 a existing).1
      = some (offeredRoute neighbor currentTime 1 a) := by
  cases existing with
  | none => simp [meetRoute, hfinite]
  | some r =>
      have hr := hother r rfl
      have hbetter : 1 + a.metric < r.metric ∨ 1 + a.metric = r.metric ∧ neighbor < r.nextHop :=
        Prod.Lex.lt_iff.mp (WithTop.coe_lt_coe.mp hlt)
      simp only [meetRoute, meetExisting, if_pos hfinite, replaceRoute, hr, if_false, or_false]
      split_ifs with htaken hchanged
      · rfl
      · exact absurd (.inr (.inr (.inl hr))) hchanged
      · exact absurd hbetter htaken

/-- The routes for a destination, met by a route that leads elsewhere or by
none, are a turn. -/
theorem foldl_meetRoute_turn {routes : List Route} {existing : Option Route}
    (hother : ∀ r, existing = some r → r.nextHop ≠ neighbor) :
    entryOffer (routes.foldl (fun e a => (meetRoute neighbor currentTime 1 a e).1) existing)
      = (routesTurn neighbor routes).run (entryOffer existing) := by
  induction routes with
  | nil => exact (Turn.run_of_le le_top).symm
  | cons a rest ih =>
      have hlast : leastOffer neighbor rest ≠ ⊤ →
          lastStated (a :: rest) 0 = lastStated rest 0 := fun hfound =>
        lastStated_start (ne_nil_of_leastOffer hfound) _ _
      rw [List.foldl_cons]
      by_cases htakes : 1 + a.metric < routeMetricInfinity
          ∧ ↑(offer (1 + a.metric) neighbor) < entryOffer existing
      · obtain ⟨hfinite, hlt⟩ := htakes
        have hbound : leastOffer neighbor (a :: rest) < entryOffer existing := by
          rw [leastOffer, if_pos hfinite]
          exact (min_le_left _ _).trans_lt hlt
        have hhop : (offeredRoute neighbor currentTime 1 a).nextHop = neighbor := rfl
        rw [meetRoute_takes hother hfinite hlt, foldl_meetRoute_own hhop, Turn.run_of_lt hbound,
          routesTurn_result hbound.ne_top, lastStated_cons, statedMetric, if_pos hfinite]
        rfl
      · -- the first route changes nothing, and decides nothing
        have hkept : (meetRoute neighbor currentTime 1 a existing).1 = existing := by
          cases existing with
          | none =>
              have hinf : ¬ 1 + a.metric < routeMetricInfinity := fun hfinite =>
                htakes ⟨hfinite, WithTop.coe_lt_top _⟩
              simp [meetRoute, hinf]
          | some r =>
              refine meetRoute_keeps (hother r rfl) fun hfinite => ?_
              exact WithTop.coe_le_coe.mp (not_lt.mp fun hlt => htakes ⟨hfinite, hlt⟩)
        have hbound : leastOffer neighbor (a :: rest) < entryOffer existing
            ↔ leastOffer neighbor rest < entryOffer existing := by
          rw [leastOffer]
          split_ifs with hfinite
          · rw [min_lt_iff]
            exact or_iff_right fun hlt => htakes ⟨hfinite, hlt⟩
          · exact Iff.rfl
        rw [hkept, ih]
        by_cases hlt : leastOffer neighbor rest < entryOffer existing
        · rw [Turn.run_of_lt hlt, Turn.run_of_lt (hbound.mpr hlt),
            routesTurn_result hlt.ne_top, routesTurn_result (hbound.mpr hlt).ne_top,
            hlast hlt.ne_top]
        · rw [Turn.run_of_le (not_lt.mp hlt),
            Turn.run_of_le (not_lt.mp fun h => hlt (hbound.mp h))]

/-- A route stays one for its destination, and leads where it led or to the
neighbour. -/
theorem mergeRoute_mem {advertisement : RouteAdvertisement} {dest : NodeId}
    {existing : Option Route} (hdest : ∀ r, existing = some r → r.destinationNode = dest) :
    ∀ r, mergeRoute neighbor currentTime 1 advertisement dest existing = some r →
      r.destinationNode = dest
        ∧ ((∃ s, existing = some s ∧ r.nextHop = s.nextHop) ∨ r.nextHop = neighbor) := by
  have hfold : ∀ (routes : List Route) (e : Option Route),
      (∀ a ∈ routes, a.destinationNode = dest) → (∀ r, e = some r → r.destinationNode = dest) →
      ∀ r, routes.foldl (fun e a => (meetRoute neighbor currentTime 1 a e).1) e = some r →
        r.destinationNode = dest
          ∧ ((∃ s, e = some s ∧ r.nextHop = s.nextHop) ∨ r.nextHop = neighbor) := by
    intro routes
    induction routes with
    | nil => exact fun e _ he r hr => ⟨he r hr, .inl ⟨r, hr, rfl⟩⟩
    | cons a rest ih =>
        intro e hroutes he r hr
        have ha := hroutes a List.mem_cons_self
        have hstep : ∀ s, (meetRoute neighbor currentTime 1 a e).1 = some s →
            s.destinationNode = dest
              ∧ ((∃ t, e = some t ∧ s.nextHop = t.nextHop) ∨ s.nextHop = neighbor) := by
          intro s hs
          cases e with
          | none =>
              rw [meetRoute] at hs
              split_ifs at hs
              rw [← Option.some.inj hs]
              exact ⟨ha, .inr rfl⟩
          | some t =>
              rw [← Option.some.inj hs]
              refine ⟨(meetExisting_destinationNode (ha.trans (he t rfl).symm)).trans (he t rfl), ?_⟩
              exact (meetExisting_nextHop t).imp (fun h => ⟨t, rfl, h⟩) id
        obtain ⟨hd, hhop⟩ := ih _ (fun b hb => hroutes b (List.mem_cons_of_mem _ hb))
          (fun s hs => (hstep s hs).1) r hr
        refine ⟨hd, ?_⟩
        rcases hhop with ⟨s, hs, heq⟩ | hhop
        · rw [heq]
          exact (hstep s hs).2
        · exact .inr hhop
  intro r hr
  have hfiltered : ∀ s, (existing.filter fun r => !withdrawn neighbor advertisement r) = some s →
      existing = some s := fun s hs => (Option.filter_eq_some_iff.mp hs).1
  unfold mergeRoute meetRoutes at hr
  split_ifs at hr
  · exact ⟨hdest r (hfiltered r hr), .inl ⟨r, hfiltered r hr, rfl⟩⟩
  · obtain ⟨hd, hhop⟩ := hfold _ _ (fun a ha => by simpa using List.of_mem_filter ha)
      (fun s hs => hdest s (hfiltered s hs)) r hr
    refine ⟨hd, hhop.imp ?_ id⟩
    rintro ⟨s, hs, heq⟩
    exact ⟨s, hfiltered s hs, heq⟩

end

/-! ## The rebuild in turns -/

/-- What a neighbour's stored advertisement does to the entry of a
destination. -/
def storedTurn (ads : RouteAdvertisements) (dest neighbor : NodeId) :
    Turn (WithTop (Offer NodeId)) :=
  match ads.lookup neighbor with
  | none => .skip
  | some stored =>
      if dest = neighbor then .skip
      else routesTurn neighbor
        (stored.advertisement.routes.filter fun a => a.destinationNode = dest)

section
variable {peers : List Peer} {ads : RouteAdvertisements} {timestamp : Nat} {dest neighbor : NodeId}
  {existing : Option Route}

/-- A neighbour with something to offer has advertised the destination. -/
theorem storedTurn_bound (h : (storedTurn ads dest neighbor).bound ≠ ⊤) :
    ∃ stored, ads.lookup neighbor = some stored ∧ dest ≠ neighbor
      ∧ storedTurn ads dest neighbor = routesTurn neighbor
        (stored.advertisement.routes.filter fun a => a.destinationNode = dest)
      ∧ ∃ a ∈ stored.advertisement.routes, a.destinationNode = dest
        ∧ 1 + a.metric < routeMetricInfinity
        ∧ (storedTurn ads dest neighbor).bound = ↑(offer (1 + a.metric) neighbor) := by
  unfold storedTurn at h ⊢
  cases hlookup : ads.lookup neighbor with
  | none =>
      rw [hlookup] at h
      exact absurd rfl h
  | some stored =>
      rw [hlookup] at h
      dsimp only at h ⊢
      by_cases hself : dest = neighbor
      · rw [if_pos hself] at h
        exact absurd rfl h
      · rw [if_neg hself] at h ⊢
        obtain ⟨a, ha, hfinite, hbound⟩ := leastOffer_mem h
        rw [List.mem_filter, decide_eq_true_eq] at ha
        exact ⟨stored, rfl, hself, rfl, a, ha.1, ha.2, hfinite, hbound⟩

/-- An advertisement that names each destination once takes the lesser. -/
theorem storedTurn_plain
    (h : ∀ stored, ads.lookup neighbor = some stored → RoutesSound stored.advertisement.routes) :
    (storedTurn ads dest neighbor).result = (storedTurn ads dest neighbor).bound := by
  unfold storedTurn
  cases hlookup : ads.lookup neighbor with
  | none => rfl
  | some stored =>
      dsimp only
      split
      · rfl
      · exact routesTurn_plain ((h stored hlookup).filter_cases dest)

variable (ads timestamp) in
/-- A route for the destination that leads elsewhere, or straight to the
destination. -/
theorem mergeStored_turn
    (hexisting : ∀ r, existing = some r → r.destinationNode = dest
      ∧ (r.nextHop = neighbor → dest = neighbor)) :
    entryOffer (mergeStored ads timestamp dest existing neighbor)
      = (storedTurn ads dest neighbor).run (entryOffer existing) := by
  unfold mergeStored storedTurn
  cases hlookup : ads.lookup neighbor with
  | none => exact (Turn.run_skip _).symm
  | some stored =>
      have hkept : (existing.filter fun r => !withdrawn neighbor stored.advertisement r)
          = existing := by
        cases existing with
        | none => rfl
        | some r =>
            obtain ⟨hdest, hhop⟩ := hexisting r rfl
            have hother : r.nextHop ≠ neighbor ∨ r.destinationNode = neighbor := by
              by_cases h : r.nextHop = neighbor
              · exact .inr (hdest.trans (hhop h))
              · exact .inl h
            simp [withdrawn_other hother]
      dsimp only
      rw [mergeRoute, hkept, meetRoutes]
      by_cases hself : dest = neighbor
      · rw [if_pos hself, if_pos hself, Turn.run_skip]
      · rw [if_neg hself, if_neg hself]
        exact foldl_meetRoute_turn fun r hr h => hself ((hexisting r hr).2 h)

theorem mergeStored_mem (hdest : ∀ r, existing = some r → r.destinationNode = dest) {r : Route}
    (h : mergeStored ads timestamp dest existing neighbor = some r) :
    r.destinationNode = dest
      ∧ ((∃ s, existing = some s ∧ r.nextHop = s.nextHop) ∨ r.nextHop = neighbor) := by
  unfold mergeStored at h
  split at h
  · exact ⟨hdest r h, .inl ⟨r, h, rfl⟩⟩
  · exact mergeRoute_mem hdest r h

variable (ads timestamp dest) in
/-- The neighbours one after the other. -/
theorem foldl_mergeStored_turns {neighbors : List NodeId} (hnodup : neighbors.Nodup)
    (hexisting : ∀ r, existing = some r → r.destinationNode = dest
      ∧ (r.nextHop ∈ neighbors → dest = r.nextHop)) :
    entryOffer (neighbors.foldl (mergeStored ads timestamp dest) existing)
      = runs (neighbors.map (storedTurn ads dest)) (entryOffer existing) := by
  induction neighbors generalizing existing with
  | nil => rfl
  | cons n rest ih =>
      obtain ⟨hn, hrest⟩ := List.nodup_cons.mp hnodup
      have hturn : entryOffer (mergeStored ads timestamp dest existing n)
          = (storedTurn ads dest n).run (entryOffer existing) := by
        refine mergeStored_turn ads timestamp fun r hr => ⟨(hexisting r hr).1, fun hhop => ?_⟩
        rw [(hexisting r hr).2 (hhop ▸ List.mem_cons_self), hhop]
      rw [List.foldl_cons, List.map_cons, runs_cons, ← hturn]
      refine ih hrest fun r hr => ?_
      obtain ⟨hdest, hhop⟩ := mergeStored_mem (fun s hs => (hexisting s hs).1) hr
      refine ⟨hdest, fun hmem => ?_⟩
      rcases hhop with ⟨s, hs, heq⟩ | hhop
      · rw [heq] at hmem ⊢
        exact (hexisting s hs).2 (List.mem_cons_of_mem _ hmem)
      · exact absurd (hhop ▸ hmem) hn

variable (peers ads timestamp dest) in
/-- The entry of a destination in the rebuilt table. -/
theorem rebuildRoute_turns :
    entryOffer (rebuildRoute peers ads timestamp dest)
      = runs ((advertisingNeighbors peers ads).map (storedTurn ads dest))
          (entryOffer (directFor peers timestamp dest)) := by
  refine foldl_mergeStored_turns ads timestamp dest advertisingNeighbors_nodup fun r hr => ?_
  obtain ⟨p, -, rfl, -, rfl⟩ := directFor_some hr
  exact ⟨rfl, fun _ => rfl⟩

/-! ## One more advertisement -/

theorem storedTurn_insert_ne {stored : StoredRouteAdvertisement} {n : NodeId} (h : n ≠ neighbor) :
    storedTurn (ads.insert neighbor stored) dest n = storedTurn ads dest n := by
  unfold storedTurn
  rw [AList.lookup_insert_ne h]

theorem storedTurn_insert {stored : StoredRouteAdvertisement} (h : dest ≠ neighbor) :
    storedTurn (ads.insert neighbor stored) dest neighbor = routesTurn neighbor
      (stored.advertisement.routes.filter fun a => a.destinationNode = dest) := by
  unfold storedTurn
  rw [AList.lookup_insert]
  exact if_neg h

/-- In the list of the neighbours after the insertion, the old advertisements
come to what they came to before. -/
theorem runs_insert (stored : StoredRouteAdvertisement) (hconnected : isConnected peers neighbor)
    (e : WithTop (Offer NodeId)) :
    runs ((advertisingNeighbors peers (ads.insert neighbor stored)).map (storedTurn ads dest)) e
      = runs ((advertisingNeighbors peers ads).map (storedTurn ads dest)) e := by
  obtain ⟨others, hkeys, hperm, hothers⟩ : ∃ others,
      (ads.insert neighbor stored).keys = neighbor :: others
        ∧ (neighbor ∈ ads.keys → (neighbor :: others).Perm ads.keys)
        ∧ (neighbor ∉ ads.keys → others = ads.keys) :=
    ⟨_, AList.keys_insert _, fun h => (@List.perm_cons_erase _ instBEqOfDecidableEq _ _ _ h).symm,
      @List.erase_of_not_mem _ instBEqOfDecidableEq _ _ _⟩
  by_cases hmem : neighbor ∈ ads.keys
  · -- it was among them already
    have hsame : advertisingNeighbors peers (ads.insert neighbor stored)
        = advertisingNeighbors peers ads := by
      have hfiltered := (hperm hmem).filter (isConnected peers)
      rw [← hkeys] at hfiltered
      refine List.Perm.eq_of_pairwise' (List.pairwise_insertionSort _ _)
        (List.pairwise_insertionSort _ _) ?_
      exact ((List.perm_insertionSort _ _).trans hfiltered).trans
        (List.perm_insertionSort _ _).symm
    rw [hsame]
  · have hskip : storedTurn ads dest neighbor = .skip := by
      unfold storedTurn
      rw [AList.lookup_eq_none.mpr fun h => hmem (AList.mem_keys.mp h)]
    rw [advertisingNeighbors, hkeys, hothers hmem, List.filter_cons_of_pos hconnected,
      List.insertionSort_cons_eq_take_drop, List.map_append, List.map_cons, runs_append, runs_cons,
      hskip, Turn.run_skip, ← runs_append, ← List.map_append, List.takeWhile_append_dropWhile]
    rfl

end

end Madoka

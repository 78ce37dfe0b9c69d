import Madoka.Network.Routing

/-!
# Route Update

A route table seen as a map from destinations to routes, and what an
advertisement does to the route of one destination. Where the destinations
fit in the table, or the table has a route already, nothing else matters to it.
-/

namespace Madoka

open Octets DistanceVector

/-- Every route names its destination, and none is named twice. -/
structure TableSound (table : RouteTable) : Prop where
  named : ∀ r ∈ table, r.destinationNode ≠ zero 32
  distinct : (table.map Route.destinationNode).Nodup

/-- The routes with these destinations. -/
def TableWithin (destinations : Finset NodeId) (table : RouteTable) : Prop :=
  ∀ r ∈ table, r.destinationNode ∈ destinations

/-- Addresses are derived from the identifiers they stand beside. -/
def Addressed (network : IPv6) (routes : List Route) : Prop :=
  ∀ r ∈ routes, r.destination = virtualAddress network r.destinationNode

/-! ## Looking up -/

section
variable {table before after : RouteTable} {r r' route : Route} {dest : NodeId}

theorem sameDestination_named {left right : Route} (hl : left.destinationNode ≠ zero 32)
    (hr : right.destinationNode ≠ zero 32) :
    sameDestination left right = decide (left.destinationNode = right.destinationNode) := by
  simp [sameDestination, hl, hr]

theorem routingFindRoute_some (h : routingFindRoute table dest = some r) :
    r ∈ table ∧ r.destinationNode = dest :=
  ⟨List.mem_of_find?_eq_some h, by simpa using List.find?_some h⟩

theorem routingFindRoute_eq_none :
    routingFindRoute table dest = none ↔ ∀ r ∈ table, r.destinationNode ≠ dest := by
  simp [routingFindRoute]

theorem routingFindRoute_of_mem (hdistinct : (table.map Route.destinationNode).Nodup)
    (hr : r ∈ table) : routingFindRoute table r.destinationNode = some r := by
  induction table with
  | nil => cases hr
  | cons s table ih =>
      obtain ⟨hs, hrest⟩ := List.nodup_cons.mp hdistinct
      rcases List.mem_cons.mp hr with rfl | hr
      · simp [routingFindRoute]
      · have hne : s.destinationNode ≠ r.destinationNode := by
          intro heq
          rw [heq] at hs
          exact hs (List.mem_map_of_mem hr)
        have hrec := ih hrest hr
        simp only [routingFindRoute] at hrec ⊢
        rw [List.find?_cons_of_neg (by simpa using hne)]
        exact hrec

theorem routingFindRoute_eq_some (hdistinct : (table.map Route.destinationNode).Nodup) :
    routingFindRoute table dest = some r ↔ r ∈ table ∧ r.destinationNode = dest := by
  constructor
  · exact routingFindRoute_some
  · rintro ⟨hr, rfl⟩
    exact routingFindRoute_of_mem hdistinct hr

theorem routingFindRoute_append (habsent : routingFindRoute table route.destinationNode = none) :
    routingFindRoute (table ++ [route]) dest
      = if dest = route.destinationNode then some route else routingFindRoute table dest := by
  by_cases hdest : dest = route.destinationNode
  · subst hdest
    simp only [routingFindRoute] at habsent
    simp [routingFindRoute, List.find?_append, habsent]
  · have hne : route.destinationNode ≠ dest := fun h => hdest h.symm
    simp [routingFindRoute, hdest, List.find?_append, hne]

/-- Writing to one route leaves the others. -/
theorem routingFindRoute_replace
    (hdistinct : ((before ++ r :: after).map Route.destinationNode).Nodup)
    (hsame : r'.destinationNode = r.destinationNode) :
    routingFindRoute (before ++ r' :: after) dest
      = if dest = r.destinationNode then some r'
        else routingFindRoute (before ++ r :: after) dest := by
  by_cases hdest : dest = r.destinationNode
  · rw [List.map_append, List.map_cons, List.nodup_middle, List.nodup_cons, List.mem_append,
      not_or] at hdistinct
    have hnone : before.find? (fun s => s.destinationNode = dest) = none := by
      rw [List.find?_eq_none]
      intro s hs hsd
      rw [decide_eq_true_eq, hdest] at hsd
      rw [← hsd] at hdistinct
      exact hdistinct.1.1 (List.mem_map_of_mem hs)
    simp [routingFindRoute, hdest, List.find?_append, hdest ▸ hnone, hsame]
  · have hne : r.destinationNode ≠ dest := fun h => hdest h.symm
    simp [routingFindRoute, hdest, List.find?_append, hsame, hne]

/-- A filter acts on each route for itself. -/
theorem routingFindRoute_filter (hdistinct : (table.map Route.destinationNode).Nodup)
    (p : Route → Bool) :
    routingFindRoute (table.filter p) dest = (routingFindRoute table dest).filter p := by
  have hfiltered : ((table.filter p).map Route.destinationNode).Nodup :=
    hdistinct.sublist (List.filter_sublist.map _)
  ext r
  rw [routingFindRoute_eq_some hfiltered, Option.filter_eq_some_iff,
    routingFindRoute_eq_some hdistinct, List.mem_filter]
  tauto

/-- A table that misses one of the destinations that fit has room. -/
theorem TableWithin.has_room {destinations : Finset NodeId} (hsound : TableSound table)
    (hwithin : TableWithin destinations table) (hfit : destinations.card ≤ maxRouteTableEntries)
    (hdest : dest ∈ destinations) (habsent : routingFindRoute table dest = none) :
    table.length < maxRouteTableEntries := by
  have hnot : dest ∉ table.map Route.destinationNode := by
    intro hmem
    obtain ⟨r, hr, heq⟩ := List.mem_map.mp hmem
    exact routingFindRoute_eq_none.mp habsent r hr heq
  have hsub : insert dest (table.map Route.destinationNode).toFinset ⊆ destinations := by
    intro d hd
    rcases Finset.mem_insert.mp hd with rfl | hd
    · exact hdest
    · obtain ⟨r, hr, rfl⟩ := List.mem_map.mp (List.mem_toFinset.mp hd)
      exact hwithin r hr
  have hcard := Finset.card_le_card hsub
  rw [Finset.card_insert_of_notMem (by rwa [List.mem_toFinset]),
    List.toFinset_card_of_nodup hsound.distinct, List.length_map] at hcard
  omega

theorem TableSound.replace (h : TableSound (before ++ r :: after))
    (hsame : r'.destinationNode = r.destinationNode) : TableSound (before ++ r' :: after) where
  named s hs := by
    rcases List.mem_append.mp hs with hs | hs
    · exact h.named s (List.mem_append_left _ hs)
    · rcases List.mem_cons.mp hs with rfl | hs
      · rw [hsame]
        exact h.named r (List.mem_append_right _ List.mem_cons_self)
      · exact h.named s (List.mem_append_right _ (List.mem_cons_of_mem _ hs))
  distinct := by
    have hdistinct := h.distinct
    rw [List.map_append, List.map_cons] at hdistinct ⊢
    rwa [hsame]

theorem TableSound.append (h : TableSound table) (hnamed : route.destinationNode ≠ zero 32)
    (habsent : routingFindRoute table route.destinationNode = none) :
    TableSound (table ++ [route]) where
  named s hs := by
    rcases List.mem_append.mp hs with hs | hs
    · exact h.named s hs
    · rw [List.mem_singleton.mp hs]
      exact hnamed
  distinct := by
    rw [List.map_append, List.map_singleton]
    refine h.distinct.append (List.nodup_singleton _) ?_
    rw [List.disjoint_singleton]
    intro hmem
    obtain ⟨r, hr, heq⟩ := List.mem_map.mp hmem
    exact routingFindRoute_eq_none.mp habsent r hr heq

theorem TableSound.filter (h : TableSound table) (p : Route → Bool) :
    TableSound (table.filter p) where
  named s hs := h.named s (List.mem_of_mem_filter hs)
  distinct := h.distinct.sublist (List.filter_sublist.map _)

end

/-! ## One advertised route -/

/-- The route through a neighbour that its advertisement offers. -/
def offeredRoute (neighbor : NodeId) (currentTime linkCost : Nat) (advertised : Route) : Route :=
  routeCreate advertised.destination neighbor (linkCost + advertised.metric) currentTime
    advertised.destinationNode

/-- What an advertised route does to the route there is for its destination,
and whether that is a change. -/
def meetExisting (neighbor : NodeId) (currentTime linkCost : Nat) (advertised existing : Route) :
    Route × Bool :=
  if linkCost + advertised.metric < routeMetricInfinity then
    replaceRoute neighbor currentTime (offeredRoute neighbor currentTime linkCost advertised)
      existing
  else poisonRoute neighbor currentTime existing

/-- The same where there may be none. -/
def meetRoute (neighbor : NodeId) (currentTime linkCost : Nat) (advertised : Route) :
    Option Route → Option Route × Bool
  | none =>
      if linkCost + advertised.metric < routeMetricInfinity then
        (some (offeredRoute neighbor currentTime linkCost advertised), true)
      else (none, false)
  | some existing =>
      (some (meetExisting neighbor currentTime linkCost advertised existing).1,
        (meetExisting neighbor currentTime linkCost advertised existing).2)

section
variable {neighbor : NodeId} {currentTime linkCost : Nat} {table : RouteTable}
  {advertised existing : Route}

theorem meetExisting_destinationNode
    (hsame : advertised.destinationNode = existing.destinationNode) :
    (meetExisting neighbor currentTime linkCost advertised existing).1.destinationNode
      = existing.destinationNode := by
  simp only [meetExisting, replaceRoute, poisonRoute]
  split_ifs <;> first | rfl | exact hsame

theorem applyRoute_present {before after : RouteTable}
    (hsound : TableSound (before ++ existing :: after))
    (hnamed : advertised.destinationNode ≠ zero 32) (hne : advertised.destinationNode ≠ neighbor)
    (hsame : advertised.destinationNode = existing.destinationNode) :
    applyRoute neighbor currentTime linkCost (before ++ existing :: after) advertised
      = (before ++ (meetExisting neighbor currentTime linkCost advertised existing).1 :: after,
          (meetExisting neighbor currentTime linkCost advertised existing).2) := by
  have hmatch : ∀ r ∈ before ++ existing :: after, sameDestination r advertised
      = decide (r.destinationNode = advertised.destinationNode) :=
    fun r hr => sameDestination_named (hsound.named r hr) hnamed
  have hdistinct := hsound.distinct
  rw [List.map_append, List.map_cons, List.nodup_middle, List.nodup_cons, List.mem_append,
    not_or] at hdistinct
  have hbefore : ∀ s ∈ before, sameDestination s advertised = false := by
    intro s hs
    rw [hmatch s (List.mem_append_left _ hs), decide_eq_false_iff_not, hsame]
    intro heq
    rw [← heq] at hdistinct
    exact hdistinct.1.1 (List.mem_map_of_mem hs)
  have hexisting : sameDestination existing advertised = true := by
    rw [hmatch existing (List.mem_append_right _ List.mem_cons_self), decide_eq_true_eq]
    exact hsame.symm
  unfold applyRoute meetExisting
  rw [if_neg hne]
  by_cases hinf : linkCost + advertised.metric < routeMetricInfinity
  · rw [min_eq_right hinf.le, if_pos hinf]
    dsimp only
    rw [if_neg (not_le.mpr hinf), FirstMatch.update_of_split hbefore hexisting]
    rfl
  · rw [min_eq_left (not_lt.mp hinf), if_neg hinf]
    dsimp only
    rw [if_pos le_rfl, FirstMatch.update_of_split hbefore hexisting]
    rfl

theorem applyRoute_absent (hsound : TableSound table)
    (hnamed : advertised.destinationNode ≠ zero 32) (hne : advertised.destinationNode ≠ neighbor)
    (habsent : routingFindRoute table advertised.destinationNode = none) :
    applyRoute neighbor currentTime linkCost table advertised
      = if linkCost + advertised.metric < routeMetricInfinity
            ∧ table.length < maxRouteTableEntries then
          (table ++ [offeredRoute neighbor currentTime linkCost advertised], true)
        else (table, false) := by
  have hnone : ∀ f : Route → Route × Bool,
      FirstMatch.update (fun route => sameDestination route advertised) f table = none := by
    intro f
    refine FirstMatch.update_eq_none.mpr fun r hr => ?_
    rw [sameDestination_named (hsound.named r hr) hnamed]
    exact decide_eq_false (routingFindRoute_eq_none.mp habsent r hr)
  unfold applyRoute
  rw [if_neg hne]
  by_cases hinf : linkCost + advertised.metric < routeMetricInfinity
  · have hfinite : ¬ routeMetricInfinity ≤ linkCost + advertised.metric := not_le.mpr hinf
    rw [min_eq_right hinf.le]
    by_cases hroom : table.length < maxRouteTableEntries
    · simp only [ge_iff_le, hfinite, hnone, hroom, hinf, and_self, if_true, if_false]
      rfl
    · simp only [ge_iff_le, hfinite, hnone, hroom, and_false, if_false]
  · rw [min_eq_left (not_lt.mp hinf)]
    simp only [ge_iff_le, le_refl, hnone, hinf, false_and, if_true, if_false, Option.getD_none]

theorem applyRoute_self (hself : advertised.destinationNode = neighbor) :
    applyRoute neighbor currentTime linkCost table advertised = (table, false) := by
  rw [applyRoute, if_pos hself]

/-- One advertised route, for a destination other than the neighbour: the
table is full and stays as it is, or it is written at that destination only. -/
theorem applyRoute_spec (hsound : TableSound table)
    (hnamed : advertised.destinationNode ≠ zero 32) (hne : advertised.destinationNode ≠ neighbor) :
    TableSound (applyRoute neighbor currentTime linkCost table advertised).1
      ∧ (routingFindRoute table advertised.destinationNode = none
          ∧ maxRouteTableEntries ≤ table.length
          ∧ linkCost + advertised.metric < routeMetricInfinity
          ∧ applyRoute neighbor currentTime linkCost table advertised = (table, false)
        ∨ (∀ dest, routingFindRoute
              (applyRoute neighbor currentTime linkCost table advertised).1 dest
            = if dest = advertised.destinationNode then
                (meetRoute neighbor currentTime linkCost advertised
                  (routingFindRoute table dest)).1
              else routingFindRoute table dest)
          ∧ (applyRoute neighbor currentTime linkCost table advertised).2
            = (meetRoute neighbor currentTime linkCost advertised
                (routingFindRoute table advertised.destinationNode)).2) := by
  cases hfind : routingFindRoute table advertised.destinationNode with
  | some r =>
      obtain ⟨hr, hdest⟩ := routingFindRoute_some hfind
      obtain ⟨before, after, rfl⟩ := List.append_of_mem hr
      have hsame : (meetExisting neighbor currentTime linkCost advertised r).1.destinationNode
          = r.destinationNode := meetExisting_destinationNode hdest.symm
      rw [applyRoute_present hsound hnamed hne hdest.symm]
      refine ⟨hsound.replace hsame, .inr ⟨fun dest => ?_, rfl⟩⟩
      dsimp only
      rw [routingFindRoute_replace hsound.distinct hsame, hdest]
      by_cases hd : dest = advertised.destinationNode
      · rw [if_pos hd, if_pos hd, hd, hfind, meetRoute]
      · rw [if_neg hd, if_neg hd]
  | none =>
      rw [applyRoute_absent hsound hnamed hne hfind]
      by_cases hinf : linkCost + advertised.metric < routeMetricInfinity
      · by_cases hroom : table.length < maxRouteTableEntries
        · rw [if_pos ⟨hinf, hroom⟩, meetRoute, if_pos hinf]
          refine ⟨hsound.append hnamed hfind, .inr ⟨fun dest => ?_, rfl⟩⟩
          dsimp only
          have hfind' : routingFindRoute table
              (offeredRoute neighbor currentTime linkCost advertised).destinationNode = none :=
            hfind
          rw [routingFindRoute_append hfind']
          by_cases hd : dest = advertised.destinationNode
          · rw [hd, if_pos rfl, hfind, meetRoute, if_pos hinf]
            exact if_pos rfl
          · rw [if_neg hd]
            exact if_neg hd
        · rw [if_neg fun h => hroom h.2]
          exact ⟨hsound, .inl ⟨rfl, not_lt.mp hroom, hinf, rfl⟩⟩
      · rw [if_neg fun h => hinf h.1, meetRoute, if_neg hinf]
        refine ⟨hsound, .inr ⟨fun dest => ?_, rfl⟩⟩
        by_cases hd : dest = advertised.destinationNode
        · rw [hd, if_pos rfl, hfind, meetRoute, if_neg hinf]
        · rw [if_neg hd]

theorem meetRoute_isSome {existing : Option Route} (h : existing.isSome) :
    (meetRoute neighbor currentTime linkCost advertised existing).1.isSome := by
  cases existing with
  | none => cases h
  | some r => rfl

end

/-! ## An advertisement -/

/-- What a list of advertised routes does to the route of one destination. -/
def meetRoutes (neighbor : NodeId) (currentTime linkCost : Nat) (routes : List Route)
    (dest : NodeId) (existing : Option Route) : Option Route :=
  if dest = neighbor then existing
  else (routes.filter fun a => a.destinationNode = dest).foldl
    (fun e a => (meetRoute neighbor currentTime linkCost a e).1) existing

/-- The same for a whole advertisement, whose withdrawals come first. -/
def mergeRoute (neighbor : NodeId) (currentTime linkCost : Nat)
    (advertisement : RouteAdvertisement) (dest : NodeId) (existing : Option Route) :
    Option Route :=
  meetRoutes neighbor currentTime linkCost advertisement.routes dest
    (existing.filter fun r => !withdrawn neighbor advertisement r)

/-- The destinations that the advertised routes may add. -/
def RoutesWithin (neighbor : NodeId) (linkCost : Nat) (destinations : Finset NodeId)
    (routes : List Route) : Prop :=
  ∀ a ∈ routes, linkCost + a.metric < routeMetricInfinity → a.destinationNode ≠ neighbor →
    a.destinationNode ∈ destinations

/-- Either all the destinations fit, or there is a route already. -/
def Admits (destinations : Finset NodeId) (table : RouteTable) (dest : NodeId) : Prop :=
  destinations.card ≤ maxRouteTableEntries ∨ (routingFindRoute table dest).isSome

def RoutesNamed (routes : List Route) : Prop :=
  ∀ a ∈ routes, a.destinationNode ≠ zero 32

section
variable {neighbor : NodeId} {currentTime linkCost : Nat} {table : RouteTable}
  {destinations : Finset NodeId}

theorem applyRoute_within (currentTime : Nat) {advertised : Route} (hsound : TableSound table)
    (hnamed : advertised.destinationNode ≠ zero 32) (hwithin : TableWithin destinations table)
    (hadds : linkCost + advertised.metric < routeMetricInfinity →
      advertised.destinationNode ≠ neighbor → advertised.destinationNode ∈ destinations) :
    TableSound (applyRoute neighbor currentTime linkCost table advertised).1
      ∧ TableWithin destinations (applyRoute neighbor currentTime linkCost table advertised).1 := by
  by_cases hself : advertised.destinationNode = neighbor
  · rw [applyRoute_self hself]
    exact ⟨hsound, hwithin⟩
  · refine ⟨(applyRoute_spec hsound hnamed hself).1, ?_⟩
    cases hfind : routingFindRoute table advertised.destinationNode with
    | some r =>
        obtain ⟨hr, hdest⟩ := routingFindRoute_some hfind
        obtain ⟨before, after, rfl⟩ := List.append_of_mem hr
        rw [applyRoute_present hsound hnamed hself hdest.symm]
        intro s hs
        rcases List.mem_append.mp hs with hs | hs
        · exact hwithin s (List.mem_append_left _ hs)
        · rcases List.mem_cons.mp hs with rfl | hs
          · rw [meetExisting_destinationNode hdest.symm]
            exact hwithin r hr
          · exact hwithin s (List.mem_append_right _ (List.mem_cons_of_mem _ hs))
    | none =>
        rw [applyRoute_absent hsound hnamed hself hfind]
        split_ifs with hadd
        · intro s hs
          rcases List.mem_append.mp hs with hs | hs
          · exact hwithin s hs
          · rw [List.mem_singleton.mp hs]
            exact hadds hadd.1 hself
        · exact hwithin

theorem applyRoute_find (currentTime : Nat) {advertised : Route} {dest : NodeId}
    (hsound : TableSound table)
    (hnamed : advertised.destinationNode ≠ zero 32) (hwithin : TableWithin destinations table)
    (hadds : linkCost + advertised.metric < routeMetricInfinity →
      advertised.destinationNode ≠ neighbor → advertised.destinationNode ∈ destinations)
    (hadmits : Admits destinations table dest) :
    routingFindRoute (applyRoute neighbor currentTime linkCost table advertised).1 dest
      = meetRoutes neighbor currentTime linkCost [advertised] dest
          (routingFindRoute table dest) := by
  unfold meetRoutes
  by_cases hself : advertised.destinationNode = neighbor
  · rw [applyRoute_self hself]
    by_cases hd : dest = neighbor
    · rw [if_pos hd]
    · have hne : advertised.destinationNode ≠ dest := fun h => hd (h ▸ hself)
      simp [hd, hne]
  · rcases (applyRoute_spec hsound hnamed hself).2 with ⟨habsent, hfull, hinf, heq⟩ | ⟨heq, -⟩
    · -- a full table has the destination already, or the destination does not matter here
      have hd : dest ≠ advertised.destinationNode := by
        rintro rfl
        rcases hadmits with hfit | hsome
        · exact absurd (hwithin.has_room hsound hfit (hadds hinf hself) habsent) (not_lt.mpr hfull)
        · rw [habsent] at hsome
          cases hsome
      rw [heq]
      simp [hd.symm]
    · rw [heq]
      by_cases hd : dest = advertised.destinationNode
      · subst hd
        simp [hself]
      · have hne : advertised.destinationNode ≠ dest := fun h => hd h.symm
        simp [hd, hne]

theorem meetRoutes_cons (advertised : Route) (rest : List Route) (dest : NodeId)
    (existing : Option Route) :
    meetRoutes neighbor currentTime linkCost (advertised :: rest) dest existing
      = meetRoutes neighbor currentTime linkCost rest dest
          (meetRoutes neighbor currentTime linkCost [advertised] dest existing) := by
  unfold meetRoutes
  by_cases hd : dest = neighbor
  · simp [hd]
  · by_cases hsame : advertised.destinationNode = dest
    · simp [hd, hsame]
    · simp [hd, hsame]

theorem meetRoutes_isSome {routes : List Route} {dest : NodeId} {existing : Option Route}
    (h : existing.isSome) :
    (meetRoutes neighbor currentTime linkCost routes dest existing).isSome := by
  unfold meetRoutes
  split_ifs
  · exact h
  · induction routes.filter (fun a => a.destinationNode = dest) generalizing existing with
    | nil => exact h
    | cons a rest ih => exact ih (meetRoute_isSome h)

/-- The loop over the advertised routes treats each destination for itself. -/
theorem applyRouteList_find (currentTime : Nat) {routes : List Route} (dest : NodeId)
    (hsound : TableSound table)
    (hnamed : RoutesNamed routes) (hwithin : TableWithin destinations table)
    (hadds : RoutesWithin neighbor linkCost destinations routes)
    (hadmits : Admits destinations table dest) :
    TableSound (applyRouteList neighbor currentTime linkCost routes table).1
      ∧ TableWithin destinations (applyRouteList neighbor currentTime linkCost routes table).1
      ∧ routingFindRoute (applyRouteList neighbor currentTime linkCost routes table).1 dest
        = meetRoutes neighbor currentTime linkCost routes dest (routingFindRoute table dest) := by
  induction routes generalizing table with
  | nil => exact ⟨hsound, hwithin, by simp [applyRouteList, meetRoutes]⟩
  | cons a rest ih =>
      have ha := hnamed a List.mem_cons_self
      have hadd := hadds a List.mem_cons_self
      obtain ⟨hsound', hwithin'⟩ := applyRoute_within currentTime hsound ha hwithin hadd
      have hfind := applyRoute_find currentTime hsound ha hwithin hadd hadmits
      have hadmits' : Admits destinations
          (applyRoute neighbor currentTime linkCost table a).1 dest := by
        refine hadmits.imp id fun hsome => ?_
        rw [hfind]
        exact meetRoutes_isSome hsome
      have hrest := ih hsound' (fun b hb => hnamed b (List.mem_cons_of_mem _ hb)) hwithin'
        (fun b hb => hadds b (List.mem_cons_of_mem _ hb)) hadmits'
      rw [meetRoutes_cons, ← hfind]
      exact hrest

/-- The whole update: withdrawals, then the advertised routes. -/
theorem applyRoutes_find (neighbor : NodeId) (currentTime linkCost : Nat)
    (advertisement : RouteAdvertisement) (dest : NodeId)
    (hsound : TableSound table) (hnamed : RoutesNamed advertisement.routes)
    (hwithin : TableWithin destinations table)
    (hadds : RoutesWithin neighbor linkCost destinations advertisement.routes)
    (hadmits : destinations.card ≤ maxRouteTableEntries
      ∨ ((routingFindRoute table dest).filter
          fun r => !withdrawn neighbor advertisement r).isSome) :
    TableSound (applyRoutes table neighbor advertisement currentTime linkCost).1
      ∧ TableWithin destinations (applyRoutes table neighbor advertisement currentTime linkCost).1
      ∧ routingFindRoute (applyRoutes table neighbor advertisement currentTime linkCost).1 dest
        = mergeRoute neighbor currentTime linkCost advertisement dest
            (routingFindRoute table dest) := by
  have hfilter : routingFindRoute (table.filter fun r => !withdrawn neighbor advertisement r) dest
      = (routingFindRoute table dest).filter fun r => !withdrawn neighbor advertisement r :=
    routingFindRoute_filter hsound.distinct _
  have hlist := applyRouteList_find currentTime dest
    (hsound.filter fun r => !withdrawn neighbor advertisement r) hnamed
    (fun r hr => hwithin r (List.mem_of_mem_filter hr)) hadds
    (hadmits.imp id fun hsome => by rwa [hfilter])
  rw [hfilter] at hlist
  exact hlist

end

/-! ## An accepted advertisement -/

theorem validateRoute_ok {network : IPv6} {route : Route}
    (h : validateRoute network route = .ok ()) :
    route.destinationNode ≠ zero 32
      ∧ route.destination = virtualAddress network route.destinationNode
      ∧ route.metric ≤ routeMetricInfinity := by
  unfold validateRoute at h
  split_ifs at h with hnamed haddress hmetric
  exact ⟨hnamed, not_not.mp haddress, not_lt.mp hmetric⟩

theorem validateRouteAdvertisement_ok {network : IPv6} {advertisement : RouteAdvertisement}
    (h : validateRouteAdvertisement advertisement network = .ok ()) :
    RoutesNamed advertisement.routes ∧ Addressed network advertisement.routes := by
  unfold validateRouteAdvertisement at h
  split_ifs at h
  have hall : ∀ a ∈ advertisement.routes, validateRoute network a = .ok () := by
    generalize advertisement.routes = routes at h
    induction routes with
    | nil => exact fun a ha => absurd ha List.not_mem_nil
    | cons b rest ih =>
        have h : (validateRoute network b >>= fun _ => rest.forM (validateRoute network))
            = .ok () := h
        cases hb : validateRoute network b with
        | error e =>
            rw [hb] at h
            cases h
        | ok u =>
            rw [hb] at h
            intro a ha
            rcases List.mem_cons.mp ha with rfl | ha
            · exact hb
            · exact ih h a ha
  exact ⟨fun a ha => (validateRoute_ok (hall a ha)).1,
    fun a ha => (validateRoute_ok (hall a ha)).2.1⟩

/-! ## The best route -/

/-- What a route offers. -/
def routeOffer (r : Route) : Offer NodeId :=
  offer r.metric r.nextHop

def entryOffer (existing : Option Route) : WithTop (Offer NodeId) :=
  existing.map routeOffer

/-- One of the candidates, and the best of them; nothing if there are none. -/
structure Chosen (candidates : Set Route) (existing : Option Route) : Prop where
  mem : ∀ r, existing = some r → r ∈ candidates
  best : Best (routeOffer '' candidates) (entryOffer existing)

section
variable {neighbor : NodeId} {currentTime linkCost : Nat} {candidates : Set Route}
  {existing : Option Route}

theorem Chosen.none : Chosen ∅ none where
  mem _ h := by cases h
  best := by
    rw [Set.image_empty]
    exact .empty

theorem Chosen.some (r : Route) : Chosen {r} (some r) where
  mem s h := by
    cases h
    rfl
  best := by
    rw [Set.image_singleton, ← insert_empty_eq]
    exact Best.empty.insert (routeOffer r)

theorem Chosen.insert_better (h : Chosen candidates existing) {r : Route}
    (hle : ↑(routeOffer r) ≤ entryOffer existing) :
    Chosen (insert r candidates) (Option.some r) where
  mem s hs := by
    cases hs
    exact Set.mem_insert _ _
  best := by
    have hbest := h.best.insert (routeOffer r)
    rw [min_eq_right hle, ← Set.image_insert_eq] at hbest
    exact hbest

theorem Chosen.insert_worse (h : Chosen candidates existing) {r : Route}
    (hle : entryOffer existing ≤ ↑(routeOffer r)) :
    Chosen (insert r candidates) existing where
  mem s hs := Set.mem_insert_of_mem _ (h.mem s hs)
  best := by
    have hbest := h.best.insert (routeOffer r)
    rw [min_eq_left hle, ← Set.image_insert_eq] at hbest
    exact hbest

/-- The routes that an advertised route adds to the candidates: one or none. -/
def offeredRoutes (neighbor : NodeId) (currentTime linkCost : Nat) (advertised : Route) :
    Set Route :=
  {r | linkCost + advertised.metric < routeMetricInfinity
    ∧ r = offeredRoute neighbor currentTime linkCost advertised}

/-- Where the route there is leads elsewhere, the better one is taken. -/
theorem Chosen.meetRoute (h : Chosen candidates existing)
    (hother : ∀ r, existing = Option.some r → r.nextHop ≠ neighbor) (advertised : Route) :
    Chosen (candidates ∪ offeredRoutes neighbor currentTime linkCost advertised)
      (meetRoute neighbor currentTime linkCost advertised existing).1 := by
  by_cases hinf : linkCost + advertised.metric < routeMetricInfinity
  · have hset : candidates ∪ offeredRoutes neighbor currentTime linkCost advertised
        = insert (offeredRoute neighbor currentTime linkCost advertised) candidates := by
      ext r
      simp [offeredRoutes, hinf]
    rw [hset]
    cases existing with
    | none =>
        rw [Madoka.meetRoute, if_pos hinf]
        exact h.insert_better le_top
    | some r =>
        have hr := hother r rfl
        simp only [Madoka.meetRoute, meetExisting, if_pos hinf, replaceRoute, hr, if_false,
          or_false]
        split_ifs with hbetter hchanged
        · refine h.insert_better (WithTop.coe_le_coe.mpr (offer_le.mpr ?_))
          exact hbetter.imp id fun htie => ⟨htie.1, htie.2.le⟩
        · exact absurd (.inr (.inr (.inl hr))) hchanged
        · refine h.insert_worse (WithTop.coe_le_coe.mpr ?_)
          refine le_of_not_gt fun hlt => hbetter ?_
          exact (Prod.Lex.lt_iff.mp hlt).imp id id
  · have hset : candidates ∪ offeredRoutes neighbor currentTime linkCost advertised
        = candidates := by
      ext r
      simp [offeredRoutes, hinf]
    rw [hset]
    cases existing with
    | none =>
        rw [Madoka.meetRoute, if_neg hinf]
        exact h
    | some r =>
        have hr := hother r rfl
        simpa [Madoka.meetRoute, meetExisting, if_neg hinf, poisonRoute, hr] using h

end

end Madoka

import Madoka.Network.SameRoutes

/-!
# Update Effect

What one advertisement does to a whole table, also where the table is full:
which routes are there afterwards, and when the change is reported.
-/

namespace Madoka

open Octets DistanceVector

/-! ## The code -/

/-- The metric of a candidate as it is computed: the sum on 64 bits. -/
def cappedMetric (linkCost metric : UInt32) : UInt32 :=
  let candidateMetric := linkCost.toUInt64 + metric.toUInt64
  if candidateMetric < UInt64.ofNat routeMetricInfinity then candidateMetric.toUInt32
  else UInt32.ofNat routeMetricInfinity

/-- The sum of two 32-bit numbers never wraps on 64 bits. -/
theorem cappedMetric_toNat (linkCost metric : UInt32) :
    (cappedMetric linkCost metric).toNat
      = min routeMetricInfinity (linkCost.toNat + metric.toNat) := by
  have hl := linkCost.toNat_lt
  have hm := metric.toNat_lt
  have hsum : (linkCost.toUInt64 + metric.toUInt64).toNat = linkCost.toNat + metric.toNat := by
    rw [UInt64.toNat_add, UInt32.toNat_toUInt64, UInt32.toNat_toUInt64]
    omega
  have hlt : linkCost.toUInt64 + metric.toUInt64 < UInt64.ofNat routeMetricInfinity
      ↔ linkCost.toNat + metric.toNat < routeMetricInfinity := by
    rw [UInt64.lt_iff_toNat_lt, hsum]
    rfl
  simp only [cappedMetric, hlt]
  split
  next h =>
    rw [UInt64.toNat_toUInt32, hsum, min_eq_right h.le]
    exact Nat.mod_eq_of_lt (h.trans (by decide))
  next h =>
    rw [min_eq_left (not_lt.mp h)]
    rfl

/-- What the update with a last known sequence number returns and leaves. -/
structure SequencedUpdateResult where
  accepted : Bool
  table : RouteTable
  lastKnownSeq : Option UInt64
  routesChanged : Bool

/-- The overload that is given one number instead of all the origins. -/
def distanceVectorUpdateSequenced (table : RouteTable) (neighbor : NodeId)
    (advertisement : RouteAdvertisement) (currentTime linkCost : Nat)
    (lastKnownSeq : Option UInt64) : SequencedUpdateResult :=
  if advertisement.sender ≠ neighbor
      ∨ lastKnownSeq.any (fun last => advertisement.sequenceNumber ≤ last) then
    { accepted := false, table := table, lastKnownSeq := lastKnownSeq, routesChanged := false }
  else
    let (table, changed) := applyRoutes table neighbor advertisement currentTime linkCost
    { accepted := true
      table := table
      lastKnownSeq := lastKnownSeq.map fun _ => advertisement.sequenceNumber
      routesChanged := changed }

section
variable {table : RouteTable} {neighbor : NodeId} {advertisement : RouteAdvertisement}
  {currentTime linkCost : Nat}

/-- An update is refused and does nothing, or it applies the routes. -/
def UpdateOutcome (table : RouteTable) (neighbor : NodeId) (advertisement : RouteAdvertisement)
    (currentTime linkCost : Nat) (accepted : Bool) (after : RouteTable) (changed : Bool) : Prop :=
  (accepted = false ∧ after = table ∧ changed = false)
    ∨ advertisement.sender = neighbor
      ∧ after = (applyRoutes table neighbor advertisement currentTime linkCost).1
      ∧ changed = (applyRoutes table neighbor advertisement currentTime linkCost).2

theorem distanceVectorUpdate_outcome (originStates : Option RouteOriginStates) :
    let result := distanceVectorUpdate table neighbor advertisement currentTime linkCost originStates
    UpdateOutcome table neighbor advertisement currentTime linkCost result.accepted result.table
      result.routesChanged := by
  simp only [distanceVectorUpdate]
  split
  next => exact .inl ⟨rfl, rfl, rfl⟩
  next h => exact .inr ⟨not_not.mp fun hne => h (.inl hne), rfl, rfl⟩

theorem distanceVectorUpdateSequenced_outcome (lastKnownSeq : Option UInt64) :
    let result := distanceVectorUpdateSequenced table neighbor advertisement currentTime linkCost
      lastKnownSeq
    UpdateOutcome table neighbor advertisement currentTime linkCost result.accepted result.table
      result.routesChanged := by
  simp only [distanceVectorUpdateSequenced]
  split
  next => exact .inl ⟨rfl, rfl, rfl⟩
  next h => exact .inr ⟨not_not.mp fun hne => h (.inl hne), rfl, rfl⟩

end

/-! ## One advertised route -/

/-- The metric with which an advertised route would be entered. -/
def Route.metricVia (linkCost : Nat) (advertised : Route) : Nat :=
  min routeMetricInfinity (linkCost + advertised.metric)

/-- Two advertised routes that amount to the same candidate. -/
structure SameCandidate (linkCost : Nat) (a b : Route) : Prop where
  node : a.destinationNode = b.destinationNode
  address : a.destination = b.destination
  metric : a.metricVia linkCost = b.metricVia linkCost

section
variable {neighbor : NodeId} {currentTime later linkCost : Nat} {table : RouteTable}
  {a b r r' : Route} {dest : NodeId} {existing : Option Route}

theorem SameCandidate.refl (a : Route) : SameCandidate linkCost a a :=
  ⟨rfl, rfl, rfl⟩

theorem SameCandidate.symm (h : SameCandidate linkCost a b) : SameCandidate linkCost b a :=
  ⟨h.node.symm, h.address.symm, h.metric.symm⟩

/-- Candidates that are the same are finite together, with one metric. -/
theorem SameCandidate.finite (h : SameCandidate linkCost a b) :
    (linkCost + a.metric < routeMetricInfinity ↔ linkCost + b.metric < routeMetricInfinity)
      ∧ (linkCost + a.metric < routeMetricInfinity → a.metric = b.metric) := by
  have hmetric := h.metric
  simp only [Route.metricVia] at hmetric
  omega

theorem meetExisting_metric (hnext : (meetExisting neighbor currentTime linkCost a r).1.nextHop
      = neighbor) :
    (meetExisting neighbor currentTime linkCost a r).1.metric = a.metricVia linkCost := by
  by_cases hinf : linkCost + a.metric < routeMetricInfinity
  · rw [Route.metricVia, min_eq_right hinf.le]
    simp only [meetExisting, if_pos hinf, replaceRoute, offeredRoute, routeCreate] at hnext ⊢
    grind
  · rw [Route.metricVia, min_eq_left (not_lt.mp hinf)]
    simp only [meetExisting, if_neg hinf, poisonRoute] at hnext ⊢
    grind

/-- A route through the neighbour has the metric that is advertised. -/
theorem meetRoute_metric (h : (meetRoute neighbor currentTime linkCost a existing).1 = some r)
    (hnext : r.nextHop = neighbor) : r.metric = a.metricVia linkCost := by
  cases existing with
  | none =>
      simp only [meetRoute] at h
      split at h
      next hinf =>
        cases h
        exact (min_eq_right hinf.le).symm
      next => cases h
  | some s =>
      simp only [meetRoute, Option.some.injEq] at h
      subst h
      exact meetExisting_metric hnext

/-- A route through another hop is the one that was there. -/
theorem meetRoute_other (h : (meetRoute neighbor currentTime linkCost a existing).1 = some r)
    (hnext : r.nextHop ≠ neighbor) : existing = some r := by
  cases existing with
  | none =>
      simp only [meetRoute] at h
      split at h
      next =>
        cases h
        exact absurd rfl hnext
      next => cases h
  | some s =>
      simp only [meetRoute, Option.some.injEq] at h
      simp only [meetExisting, replaceRoute, poisonRoute, offeredRoute, routeCreate] at h
      grind

/-- A route through another hop stays, or gives way to a better one. -/
theorem meetExisting_better (hnext : r.nextHop ≠ neighbor) :
    (meetExisting neighbor currentTime linkCost a r).1 = r
      ∨ ∃ r', (meetExisting neighbor currentTime linkCost a r).1 = r' ∧ r'.nextHop = neighbor
        ∧ (r'.metric < r.metric ∨ r'.metric = r.metric ∧ neighbor < r.nextHop) := by
  simp only [meetExisting, replaceRoute, poisonRoute, offeredRoute, routeCreate]
  grind

/-- The flag tells whether the route changes, up to its time. -/
theorem meetExisting_changed_iff : (meetExisting neighbor currentTime linkCost a r).2 = true
    ↔ (meetExisting neighbor currentTime linkCost a r).1.untimed ≠ r.untimed := by
  rw [Ne, untimed_eq_iff]
  simp only [meetExisting, replaceRoute, poisonRoute, offeredRoute, routeCreate]
  grind

/-- The flag does not depend on the times, nor on which of two equal
candidates is met. -/
theorem meetExisting_flag_congr (hsame : SameCandidate linkCost a b)
    (huntimed : r.untimed = r'.untimed) :
    (meetExisting neighbor currentTime linkCost a r).2
      = (meetExisting neighbor later linkCost b r').2 := by
  obtain ⟨haddress, hnode, hhop, hmetric⟩ := untimed_eq_iff.mp huntimed
  obtain ⟨hfinite, hequal⟩ := hsame.finite
  have ha := hsame.address
  have hn := hsame.node
  simp only [meetExisting, replaceRoute, poisonRoute, offeredRoute, routeCreate]
  grind

/-- Met once, a candidate does nothing more. -/
theorem meetExisting_again :
    (meetExisting neighbor later linkCost a
      (meetExisting neighbor currentTime linkCost a r).1).2 = false := by
  simp only [meetExisting, replaceRoute, poisonRoute, offeredRoute, routeCreate]
  grind

theorem meetExisting_offered (hinf : linkCost + a.metric < routeMetricInfinity) :
    (meetExisting neighbor later linkCost a
      (offeredRoute neighbor currentTime linkCost a)).2 = false := by
  simp only [meetExisting, replaceRoute, poisonRoute, offeredRoute, routeCreate]
  grind

theorem meetRoute_changed_iff : (meetRoute neighbor currentTime linkCost a existing).2 = true
    ↔ (meetRoute neighbor currentTime linkCost a existing).1.map Route.untimed
      ≠ existing.map Route.untimed := by
  cases existing with
  | none =>
      simp only [meetRoute]
      split <;> simp
  | some s => simp [meetRoute, meetExisting_changed_iff]

end

/-! ## The table -/

section
variable (neighbor : NodeId) (currentTime linkCost : Nat) {table : RouteTable} {a r : Route}
  {dest : NodeId}

theorem applyRoute_sound (hsound : TableSound table) (hnamed : a.destinationNode ≠ zero 32) :
    TableSound (applyRoute neighbor currentTime linkCost table a).1 := by
  by_cases hself : a.destinationNode = neighbor
  · rwa [applyRoute_self hself]
  · exact (applyRoute_spec hsound hnamed hself).1

/-- An advertised route acts on its own destination only, and not on the
neighbour's. -/
theorem applyRoute_frame (hsound : TableSound table) (hnamed : a.destinationNode ≠ zero 32)
    (hdest : a.destinationNode = dest → dest = neighbor) :
    routingFindRoute (applyRoute neighbor currentTime linkCost table a).1 dest
      = routingFindRoute table dest := by
  by_cases hself : a.destinationNode = neighbor
  · rw [applyRoute_self hself]
  · rcases (applyRoute_spec hsound hnamed hself).2 with ⟨-, -, -, heq⟩ | ⟨heq, -⟩
    · rw [heq]
    · rw [heq, if_neg]
      intro h
      exact hself (h ▸ hdest h.symm)

/-- Nothing is removed, and nothing is added to a full table. -/
theorem applyRoute_length (hsound : TableSound table) (hnamed : a.destinationNode ≠ zero 32) :
    table.length ≤ (applyRoute neighbor currentTime linkCost table a).1.length
      ∧ (table.length ≤ maxRouteTableEntries →
        (applyRoute neighbor currentTime linkCost table a).1.length ≤ maxRouteTableEntries) := by
  by_cases hself : a.destinationNode = neighbor
  · rw [applyRoute_self hself]
    exact ⟨le_rfl, id⟩
  · cases hfind : routingFindRoute table a.destinationNode with
    | some r =>
        obtain ⟨hr, hdest⟩ := routingFindRoute_some hfind
        obtain ⟨before, after, rfl⟩ := List.append_of_mem hr
        rw [applyRoute_present hsound hnamed hself hdest.symm]
        simp
    | none =>
        rw [applyRoute_absent hsound hnamed hself hfind]
        split
        next hadd =>
          simp only [List.length_append, List.length_singleton]
          omega
        next => exact ⟨le_rfl, id⟩

/-- What happens at the destination that is advertised: it is met, or it is
new and does not fit. -/
theorem applyRoute_dest (hsound : TableSound table) (hnamed : a.destinationNode ≠ zero 32)
    (hself : a.destinationNode ≠ neighbor) :
    (routingFindRoute table a.destinationNode = none ∧ maxRouteTableEntries ≤ table.length
        ∧ applyRoute neighbor currentTime linkCost table a = (table, false))
      ∨ routingFindRoute (applyRoute neighbor currentTime linkCost table a).1 a.destinationNode
          = (meetRoute neighbor currentTime linkCost a
              (routingFindRoute table a.destinationNode)).1
        ∧ (applyRoute neighbor currentTime linkCost table a).2
          = (meetRoute neighbor currentTime linkCost a
              (routingFindRoute table a.destinationNode)).2 := by
  rcases (applyRoute_spec hsound hnamed hself).2 with ⟨hnone, hfull, -, heq⟩ | ⟨heq, hflag⟩
  · exact .inl ⟨hnone, hfull, heq⟩
  · refine .inr ⟨?_, hflag⟩
    rw [heq, if_pos rfl]

/-- Without the flag, every destination keeps its route, up to the time. -/
theorem applyRoute_find_unchanged (hsound : TableSound table) (hnamed : a.destinationNode ≠ zero 32)
    (hflag : (applyRoute neighbor currentTime linkCost table a).2 = false) (dest : NodeId) :
    (routingFindRoute (applyRoute neighbor currentTime linkCost table a).1 dest).map Route.untimed
      = (routingFindRoute table dest).map Route.untimed := by
  by_cases hdest : a.destinationNode = dest → dest = neighbor
  · rw [applyRoute_frame neighbor currentTime linkCost hsound hnamed hdest]
  · obtain ⟨rfl, hself⟩ := Classical.not_imp.mp hdest
    rcases applyRoute_dest neighbor currentTime linkCost hsound hnamed hself with ⟨-, -, heq⟩ | ⟨hfind, hsame⟩
    · rw [heq]
    · rw [hfind]
      rw [hsame] at hflag
      by_contra hne
      rw [meetRoute_changed_iff.mpr hne] at hflag
      cases hflag

/-- With the flag, the destination that is advertised has another route. -/
theorem applyRoute_changed (hsound : TableSound table) (hnamed : a.destinationNode ≠ zero 32)
    (hflag : (applyRoute neighbor currentTime linkCost table a).2 = true) :
    a.destinationNode ≠ neighbor
      ∧ routingFindRoute (applyRoute neighbor currentTime linkCost table a).1 a.destinationNode
          = (meetRoute neighbor currentTime linkCost a
              (routingFindRoute table a.destinationNode)).1
      ∧ (routingFindRoute (applyRoute neighbor currentTime linkCost table a).1
            a.destinationNode).map Route.untimed
          ≠ (routingFindRoute table a.destinationNode).map Route.untimed := by
  have hself : a.destinationNode ≠ neighbor := by
    intro hself
    rw [applyRoute_self hself] at hflag
    cases hflag
  rcases applyRoute_dest neighbor currentTime linkCost hsound hnamed hself with ⟨-, -, heq⟩ | ⟨hfind, hsame⟩
  · rw [heq] at hflag
    cases hflag
  · rw [hsame] at hflag
    refine ⟨hself, hfind, ?_⟩
    rw [hfind]
    exact meetRoute_changed_iff.mp hflag

end

/-! ## The loop over the advertised routes -/

/-- The advertised routes of one destination amount to the same candidate. -/
def Agreeing (neighbor : NodeId) (linkCost : Nat) (routes : List Route) : Prop :=
  ∀ a ∈ routes, ∀ b ∈ routes, a.destinationNode = b.destinationNode →
    a.destinationNode ≠ neighbor → SameCandidate linkCost a b

/-- An advertised route does nothing to this table. -/
def Settled (neighbor : NodeId) (linkCost : Nat) (table : RouteTable) (a : Route) : Prop :=
  a.destinationNode ≠ neighbor →
    (∃ r, routingFindRoute table a.destinationNode = some r
        ∧ (meetExisting neighbor 0 linkCost a r).2 = false)
      ∨ routingFindRoute table a.destinationNode = none
        ∧ (linkCost + a.metric < routeMetricInfinity → maxRouteTableEntries ≤ table.length)

section
variable (neighbor : NodeId) (currentTime linkCost : Nat) {table : RouteTable}
  {routes : List Route} {a r : Route} {dest : NodeId}

theorem RoutesNamed.tail (h : RoutesNamed (a :: routes)) : RoutesNamed routes :=
  fun b hb => h b (List.mem_cons_of_mem _ hb)

theorem applyRouteList_sound (hsound : TableSound table) (hnamed : RoutesNamed routes) :
    TableSound (applyRouteList neighbor currentTime linkCost routes table).1 := by
  induction routes generalizing table with
  | nil => exact hsound
  | cons a routes ih =>
      have hstep := applyRoute_sound neighbor currentTime linkCost hsound (hnamed a List.mem_cons_self)
      exact ih hstep hnamed.tail

theorem applyRouteList_frame (hsound : TableSound table) (hnamed : RoutesNamed routes)
    (hdest : ∀ a ∈ routes, a.destinationNode = dest → dest = neighbor) :
    routingFindRoute (applyRouteList neighbor currentTime linkCost routes table).1 dest
      = routingFindRoute table dest := by
  induction routes generalizing table with
  | nil => rfl
  | cons a routes ih =>
      have ha := hnamed a List.mem_cons_self
      have hrest := ih (applyRoute_sound neighbor currentTime linkCost hsound ha) hnamed.tail
        fun b hb => hdest b (List.mem_cons_of_mem _ hb)
      exact hrest.trans (applyRoute_frame neighbor currentTime linkCost hsound ha (hdest a List.mem_cons_self))

theorem applyRouteList_length (hsound : TableSound table) (hnamed : RoutesNamed routes) :
    table.length ≤ (applyRouteList neighbor currentTime linkCost routes table).1.length
      ∧ (table.length ≤ maxRouteTableEntries →
        (applyRouteList neighbor currentTime linkCost routes table).1.length
          ≤ maxRouteTableEntries) := by
  induction routes generalizing table with
  | nil => exact ⟨le_rfl, id⟩
  | cons a routes ih =>
      have ha := hnamed a List.mem_cons_self
      have hfirst := applyRoute_length neighbor currentTime linkCost hsound ha
      have hrest := ih (applyRoute_sound neighbor currentTime linkCost hsound ha) hnamed.tail
      exact ⟨hfirst.1.trans hrest.1, fun h => hrest.2 (hfirst.2 h)⟩

/-- A route through the neighbour has a metric that was advertised, or it was
there and its destination is not advertised. -/
theorem applyRouteList_via (hsound : TableSound table) (hnamed : RoutesNamed routes)
    (hfind : routingFindRoute (applyRouteList neighbor currentTime linkCost routes table).1 dest
      = some r) (hnext : r.nextHop = neighbor) (hdest : dest ≠ neighbor) :
    (∃ a ∈ routes, a.destinationNode = dest ∧ r.metric = a.metricVia linkCost)
      ∨ routingFindRoute table dest = some r ∧ ∀ a ∈ routes, a.destinationNode ≠ dest := by
  induction routes generalizing table with
  | nil => exact .inr ⟨hfind, fun a ha => absurd ha List.not_mem_nil⟩
  | cons a routes ih =>
      have ha := hnamed a List.mem_cons_self
      have hstep := applyRoute_sound neighbor currentTime linkCost hsound ha
      rcases ih hstep hnamed.tail hfind with ⟨b, hb, hbd, hmetric⟩ | ⟨hfirst, hrest⟩
      · exact .inl ⟨b, List.mem_cons_of_mem _ hb, hbd, hmetric⟩
      · by_cases hsame : a.destinationNode = dest
        · -- the last route for the destination, so it is still as this one left it
          subst hsame
          rcases applyRoute_dest neighbor currentTime linkCost hsound ha
            hdest with ⟨hnone, -, heq⟩ | ⟨hmeet, -⟩
          · rw [heq, hnone] at hfirst
            cases hfirst
          · rw [hmeet] at hfirst
            exact .inl ⟨a, List.mem_cons_self, rfl, meetRoute_metric hfirst hnext⟩
        · rw [applyRoute_frame neighbor currentTime linkCost hsound ha fun h => absurd h hsame] at hfirst
          refine .inr ⟨hfirst, fun b hb => ?_⟩
          rcases List.mem_cons.mp hb with rfl | hb
          · exact hsame
          · exact hrest b hb

/-- A route through another hop was there. -/
theorem applyRouteList_other (hsound : TableSound table) (hnamed : RoutesNamed routes)
    (hfind : routingFindRoute (applyRouteList neighbor currentTime linkCost routes table).1 dest
      = some r) (hnext : r.nextHop ≠ neighbor) : routingFindRoute table dest = some r := by
  induction routes generalizing table with
  | nil => exact hfind
  | cons a routes ih =>
      have ha := hnamed a List.mem_cons_self
      have hfirst := ih (applyRoute_sound neighbor currentTime linkCost hsound ha) hnamed.tail hfind
      by_cases hframe : a.destinationNode = dest → dest = neighbor
      · rwa [applyRoute_frame neighbor currentTime linkCost hsound ha hframe] at hfirst
      · obtain ⟨rfl, hself⟩ := Classical.not_imp.mp hframe
        rcases applyRoute_dest neighbor currentTime linkCost hsound ha
          hself with ⟨-, -, heq⟩ | ⟨hmeet, -⟩
        · rwa [heq] at hfirst
        · rw [hmeet] at hfirst
          exact meetRoute_other hfirst hnext

/-- Where destinations are advertised once, a route through another hop stays
or gives way to a better one. -/
theorem applyRouteList_better (hsound : TableSound table) (hnamed : RoutesNamed routes)
    (hdistinct : (routes.map Route.destinationNode).Nodup)
    (hfind : routingFindRoute table dest = some r) (hnext : r.nextHop ≠ neighbor) :
    routingFindRoute (applyRouteList neighbor currentTime linkCost routes table).1 dest = some r
      ∨ ∃ r', routingFindRoute (applyRouteList neighbor currentTime linkCost routes table).1 dest
            = some r' ∧ r'.nextHop = neighbor
          ∧ (r'.metric < r.metric ∨ r'.metric = r.metric ∧ neighbor < r.nextHop) := by
  induction routes generalizing table with
  | nil => exact .inl hfind
  | cons a routes ih =>
      have ha := hnamed a List.mem_cons_self
      obtain ⟨hfresh, hdistinct⟩ := List.nodup_cons.mp hdistinct
      have hstep := applyRoute_sound neighbor currentTime linkCost hsound ha
      by_cases hframe : a.destinationNode = dest → dest = neighbor
      · exact ih hstep hnamed.tail hdistinct ((applyRoute_frame neighbor currentTime linkCost hsound ha hframe).trans hfind)
      · obtain ⟨rfl, hself⟩ := Classical.not_imp.mp hframe
        -- the rest of the advertisement does not come back to this destination
        have hlast : ∀ b ∈ routes, b.destinationNode = a.destinationNode →
            a.destinationNode = neighbor := fun b hb hbd =>
          absurd (hbd ▸ List.mem_map_of_mem hb) hfresh
        have hrest := applyRouteList_frame neighbor currentTime linkCost hstep hnamed.tail hlast
        rcases applyRoute_dest neighbor currentTime linkCost hsound ha
          hself with ⟨hnone, -, -⟩ | ⟨hmeet, -⟩
        · rw [hfind] at hnone
          cases hnone
        · rw [hfind] at hmeet
          rw [applyRouteList, hrest, hmeet]
          rcases @meetExisting_better neighbor currentTime linkCost a r hnext with hkept | ⟨r', hr', hhop, hlower⟩
          · exact .inl (congrArg some hkept)
          · exact .inr ⟨r', congrArg some hr', hhop, hlower⟩

/-! ## The flag -/

/-- Without the flag, every destination keeps its route, up to the time. -/
theorem applyRouteList_find_unchanged (hsound : TableSound table) (hnamed : RoutesNamed routes)
    (hflag : (applyRouteList neighbor currentTime linkCost routes table).2 = false)
    (dest : NodeId) :
    (routingFindRoute (applyRouteList neighbor currentTime linkCost routes table).1 dest).map
        Route.untimed
      = (routingFindRoute table dest).map Route.untimed := by
  induction routes generalizing table with
  | nil => rfl
  | cons a routes ih =>
      have ha := hnamed a List.mem_cons_self
      simp only [applyRouteList, Bool.or_eq_false_iff] at hflag
      have hstep := applyRoute_sound neighbor currentTime linkCost hsound ha
      have hfirst := applyRoute_find_unchanged neighbor currentTime linkCost hsound ha hflag.1 dest
      exact (ih hstep hnamed.tail hflag.2).trans hfirst

theorem Agreeing.tail (h : Agreeing neighbor linkCost (a :: routes)) :
    Agreeing neighbor linkCost routes :=
  fun b hb c hc => h b (List.mem_cons_of_mem _ hb) c (List.mem_cons_of_mem _ hc)

/-- What is settled does nothing. -/
theorem applyRoute_settled (hsound : TableSound table) (hnamed : a.destinationNode ≠ zero 32)
    (hsettled : Settled neighbor linkCost table a) :
    (applyRoute neighbor currentTime linkCost table a).2 = false := by
  by_cases hself : a.destinationNode = neighbor
  · rw [applyRoute_self hself]
  · rcases hsettled hself with ⟨r, hfind, hflag⟩ | ⟨hnone, hfull⟩
    · rcases applyRoute_dest neighbor currentTime linkCost hsound hnamed hself with
        ⟨hnone, -, -⟩ | ⟨-, hmeet⟩
      · rw [hfind] at hnone
        cases hnone
      · rw [hmeet, hfind, ← hflag]
        exact meetExisting_flag_congr (.refl a) rfl
    · rw [applyRoute_absent hsound hnamed hself hnone, if_neg]
      intro h
      exact absurd (hfull h.1) (not_le.mpr h.2)

/-- What did nothing to a table does nothing to one with the same routes. -/
theorem Settled.congr {table' : RouteTable} (h : Settled neighbor linkCost table a)
    (hsame : (routingFindRoute table' a.destinationNode).map Route.untimed
      = (routingFindRoute table a.destinationNode).map Route.untimed)
    (hlength : table.length ≤ table'.length) : Settled neighbor linkCost table' a := by
  intro hself
  rcases h hself with ⟨r, hfind, hflag⟩ | ⟨hnone, hfull⟩
  · rw [hfind] at hsame
    obtain ⟨r', hfind', huntimed⟩ := Option.map_eq_some_iff.mp hsame
    refine .inl ⟨r', hfind', ?_⟩
    rw [← hflag]
    exact meetExisting_flag_congr (.refl a) huntimed
  · rw [hnone] at hsame
    exact .inr ⟨Option.map_eq_none_iff.mp hsame, fun hinf => (hfull hinf).trans hlength⟩

/-- A candidate is settled with any other that is the same. -/
theorem Settled.same {b : Route} (h : Settled neighbor linkCost table b)
    (hsame : SameCandidate linkCost a b) : Settled neighbor linkCost table a := by
  intro hself
  rw [hsame.node] at hself ⊢
  rcases h hself with ⟨r, hfind, hflag⟩ | ⟨hnone, hfull⟩
  · refine .inl ⟨r, hfind, ?_⟩
    rw [← hflag]
    exact meetExisting_flag_congr hsame rfl
  · exact .inr ⟨hnone, fun hinf => hfull (hsame.finite.1.mp hinf)⟩

/-- An advertised route settles itself. -/
theorem applyRoute_settles (hsound : TableSound table) (hnamed : a.destinationNode ≠ zero 32) :
    Settled neighbor linkCost (applyRoute neighbor currentTime linkCost table a).1 a := by
  intro hself
  rcases applyRoute_dest neighbor currentTime linkCost hsound hnamed hself with
    ⟨hnone, hfull, heq⟩ | ⟨hmeet, -⟩
  · rw [heq]
    exact .inr ⟨hnone, fun _ => hfull⟩
  · rw [hmeet]
    cases hfind : routingFindRoute table a.destinationNode with
    | some r => exact .inl ⟨_, rfl, meetExisting_again⟩
    | none =>
        by_cases hinf : linkCost + a.metric < routeMetricInfinity
        · rw [meetRoute, if_pos hinf]
          exact .inl ⟨_, rfl, meetExisting_offered hinf⟩
        · rw [meetRoute, if_neg hinf]
          exact .inr ⟨rfl, fun h => absurd h hinf⟩

/-- What is settled does nothing, also one route after the other. -/
theorem applyRouteList_settled (hsound : TableSound table) (hnamed : RoutesNamed routes)
    (hsettled : ∀ a ∈ routes, Settled neighbor linkCost table a) :
    (applyRouteList neighbor currentTime linkCost routes table).2 = false := by
  induction routes generalizing table with
  | nil => rfl
  | cons a routes ih =>
      have ha := hnamed a List.mem_cons_self
      have hflag := applyRoute_settled neighbor currentTime linkCost hsound ha
        (hsettled a List.mem_cons_self)
      have hrest := ih (applyRoute_sound neighbor currentTime linkCost hsound ha) hnamed.tail
        fun b hb => (hsettled b (List.mem_cons_of_mem _ hb)).congr neighbor linkCost
          (applyRoute_find_unchanged neighbor currentTime linkCost hsound ha hflag _)
          (applyRoute_length neighbor currentTime linkCost hsound ha).1
      simp only [applyRouteList, hflag, hrest, Bool.or_self]

/-- Routes that agree settle the table for all of them. -/
theorem applyRouteList_settles (hsound : TableSound table) (hnamed : RoutesNamed routes)
    (hagree : Agreeing neighbor linkCost routes) :
    ∀ a ∈ routes, Settled neighbor linkCost
      (applyRouteList neighbor currentTime linkCost routes table).1 a := by
  induction routes generalizing table with
  | nil =>
      intro a ha
      cases ha
  | cons first routes ih =>
      have hfirst := hnamed first List.mem_cons_self
      have hstep := applyRoute_sound neighbor currentTime linkCost hsound hfirst
      have hlater := ih hstep hnamed.tail (hagree.tail neighbor linkCost)
      intro a ha
      rcases List.mem_cons.mp ha with rfl | ha
      · by_cases hagain : ∃ b ∈ routes, b.destinationNode = a.destinationNode
        · -- a later route for the destination amounts to the same
          obtain ⟨b, hb, hbd⟩ := hagain
          intro hself
          have hsame := hagree a ha b (List.mem_cons_of_mem _ hb) hbd.symm hself
          exact (hlater b hb).same neighbor linkCost hsame hself
        · have hframe := applyRouteList_frame neighbor currentTime linkCost hstep hnamed.tail
            fun b hb hbd => absurd ⟨b, hb, hbd⟩ hagain
          exact (applyRoute_settles neighbor currentTime linkCost hsound hfirst).congr neighbor
            linkCost (congrArg _ hframe)
            (applyRouteList_length neighbor currentTime linkCost hstep hnamed.tail).1
      · exact hlater a ha

/-- The route of a settled destination stays, where the routes agree. -/
theorem applyRouteList_kept (hsound : TableSound table) (hnamed : RoutesNamed routes)
    (hsettled : Settled neighbor linkCost table a)
    (hsame : ∀ b ∈ routes, a.destinationNode = b.destinationNode → SameCandidate linkCost a b) :
    (routingFindRoute (applyRouteList neighbor currentTime linkCost routes table).1
        a.destinationNode).map Route.untimed
      = (routingFindRoute table a.destinationNode).map Route.untimed := by
  induction routes generalizing table with
  | nil => rfl
  | cons b routes ih =>
      have hb := hnamed b List.mem_cons_self
      have hstep := applyRoute_sound neighbor currentTime linkCost hsound hb
      have hfirst : (routingFindRoute (applyRoute neighbor currentTime linkCost table b).1
            a.destinationNode).map Route.untimed
          = (routingFindRoute table a.destinationNode).map Route.untimed := by
        by_cases hdest : a.destinationNode = b.destinationNode
        · have hcandidate := hsame b List.mem_cons_self hdest
          have hflag := applyRoute_settled neighbor currentTime linkCost hsound hb
            (hsettled.same neighbor linkCost hcandidate.symm)
          exact applyRoute_find_unchanged neighbor currentTime linkCost hsound hb hflag _
        · rw [applyRoute_frame neighbor currentTime linkCost hsound hb
            fun h => absurd h.symm hdest]
      have hsettled' := hsettled.congr neighbor linkCost hfirst
        (applyRoute_length neighbor currentTime linkCost hsound hb).1
      exact (ih hstep hnamed.tail hsettled' fun c hc =>
        hsame c (List.mem_cons_of_mem _ hc)).trans hfirst

/-- With the flag, some destination has another route afterwards, where the
routes agree: what changed is settled then, and stays. -/
theorem applyRouteList_changed (hsound : TableSound table) (hnamed : RoutesNamed routes)
    (hagree : Agreeing neighbor linkCost routes)
    (hflag : (applyRouteList neighbor currentTime linkCost routes table).2 = true) :
    ∃ dest, (routingFindRoute (applyRouteList neighbor currentTime linkCost routes table).1
        dest).map Route.untimed
      ≠ (routingFindRoute table dest).map Route.untimed := by
  induction routes generalizing table with
  | nil => cases hflag
  | cons a routes ih =>
      have ha := hnamed a List.mem_cons_self
      have hstep := applyRoute_sound neighbor currentTime linkCost hsound ha
      cases hfirst : (applyRoute neighbor currentTime linkCost table a).2 with
      | false =>
          simp only [applyRouteList, hfirst, Bool.false_or] at hflag
          obtain ⟨dest, hdest⟩ := ih hstep hnamed.tail (hagree.tail neighbor linkCost) hflag
          refine ⟨dest, fun h => hdest ?_⟩
          exact h.trans
            (applyRoute_find_unchanged neighbor currentTime linkCost hsound ha hfirst dest).symm
      | true =>
          obtain ⟨hself, hmeet, hchanged⟩ := applyRoute_changed neighbor currentTime linkCost
            hsound ha hfirst
          refine ⟨a.destinationNode, ?_⟩
          have hkept := applyRouteList_kept neighbor currentTime linkCost hstep hnamed.tail
            (applyRoute_settles neighbor currentTime linkCost hsound ha)
            fun b hb hbd => hagree a List.mem_cons_self b (List.mem_cons_of_mem _ hb) hbd hself
          rw [applyRouteList, hkept]
          exact hchanged

end

/-! ## The whole update -/

/-- What a table tells apart: who is reached, at which address, through whom
and how far away. -/
def Route.tuple (r : Route) : NodeId × IPv6 × NodeId × Nat :=
  (r.destinationNode, r.destination, r.nextHop, r.metric)

def routeTuples (table : RouteTable) : Finset (NodeId × IPv6 × NodeId × Nat) :=
  (table.map Route.tuple).toFinset

/-- What an update from a neighbour may do. -/
structure UpdateEffect (neighbor : NodeId) (linkCost : Nat) (advertisement : RouteAdvertisement)
    (before after : RouteTable) : Prop where
  /-- A route through the neighbour is one that is advertised. -/
  advertised : ∀ r ∈ after, r.nextHop = neighbor → r.destinationNode ≠ neighbor →
    ∃ a ∈ advertisement.routes, a.destinationNode = r.destinationNode
      ∧ r.metric = min routeMetricInfinity (linkCost + a.metric)
  /-- Any other route was there. -/
  others : ∀ r ∈ after, r.nextHop ≠ neighbor ∨ r.destinationNode = neighbor → r ∈ before
  /-- A route through another hop stays, or a better one replaces it. -/
  better : ∀ r ∈ before, r.nextHop ≠ neighbor → r ∈ after
    ∨ ∃ r' ∈ after, r'.destinationNode = r.destinationNode ∧ r'.nextHop = neighbor
      ∧ (r'.metric < r.metric ∨ r'.metric = r.metric ∧ r'.nextHop < r.nextHop)
  /-- The route to the neighbour itself stays. -/
  direct : ∀ r ∈ before, r.destinationNode = neighbor → r ∈ after
  sound : TableSound after
  bounded : before.length ≤ maxRouteTableEntries → after.length ≤ maxRouteTableEntries

section
variable {neighbor : NodeId} {currentTime linkCost : Nat} {table : RouteTable}
  {advertisement : RouteAdvertisement} {r : Route}

theorem withdrawn_eq_true (hr : r.destinationNode ≠ zero 32)
    (hnamed : RoutesNamed advertisement.routes) :
    withdrawn neighbor advertisement r = true ↔ r.nextHop = neighbor
      ∧ r.destinationNode ≠ neighbor
      ∧ ∀ a ∈ advertisement.routes, a.destinationNode ≠ r.destinationNode := by
  have hmatch : (advertisement.routes.any fun a => sameDestination r a) = false
      ↔ ∀ a ∈ advertisement.routes, a.destinationNode ≠ r.destinationNode := by
    rw [List.any_eq_false]
    refine forall₂_congr fun a ha => ?_
    rw [sameDestination_named hr (hnamed a ha), decide_eq_true_eq, eq_comm]
  simp only [withdrawn]
  split
  next h =>
    refine iff_of_false (by simp) ?_
    intro hall
    rcases h with h | h
    · exact h hall.1
    · exact hall.2.1 h
  next h =>
    obtain ⟨hhop, hself⟩ := not_or.mp h
    rw [Bool.not_eq_true', hmatch]
    exact ⟨fun hall => ⟨not_not.mp hhop, hself, hall⟩, fun hall => hall.2.2⟩

theorem applyRoutes_sound (currentTime linkCost : Nat) (hsound : TableSound table)
    (hnamed : RoutesNamed advertisement.routes) :
    TableSound (applyRoutes table neighbor advertisement currentTime linkCost).1 :=
  applyRouteList_sound neighbor currentTime linkCost (hsound.filter _) hnamed

/-- After an update, what leads through the neighbour is advertised. -/
theorem applyRoutes_advertised (hsound : TableSound table)
    (hnamed : RoutesNamed advertisement.routes)
    (hr : r ∈ (applyRoutes table neighbor advertisement currentTime linkCost).1)
    (hhop : r.nextHop = neighbor) (hself : r.destinationNode ≠ neighbor) :
    ∃ a ∈ advertisement.routes, a.destinationNode = r.destinationNode
      ∧ r.metric = a.metricVia linkCost := by
  have hafter : TableSound (applyRoutes table neighbor advertisement currentTime linkCost).1 :=
    applyRoutes_sound currentTime linkCost hsound hnamed
  rcases applyRouteList_via neighbor currentTime linkCost (hsound.filter _) hnamed
    (routingFindRoute_of_mem hafter.distinct hr) hhop hself with hvia | ⟨hfind, hnone⟩
  · exact hvia
  · -- it would have been withdrawn
    obtain ⟨hr, hnot⟩ := List.mem_filter.mp (routingFindRoute_some hfind).1
    rw [Bool.not_eq_true', Bool.eq_false_iff, Ne,
      withdrawn_eq_true (hsound.named r hr) hnamed] at hnot
    exact absurd ⟨hhop, hself, hnone⟩ hnot

/-- What does not lead through the neighbour was there before. -/
theorem applyRoutes_others (hsound : TableSound table) (hnamed : RoutesNamed advertisement.routes)
    (hr : r ∈ (applyRoutes table neighbor advertisement currentTime linkCost).1)
    (hother : r.nextHop ≠ neighbor ∨ r.destinationNode = neighbor) : r ∈ table := by
  have hkept := hsound.filter fun r => !withdrawn neighbor advertisement r
  have hafter : TableSound (applyRoutes table neighbor advertisement currentTime linkCost).1 :=
    applyRoutes_sound currentTime linkCost hsound hnamed
  have hfind := routingFindRoute_of_mem hafter.distinct hr
  refine List.mem_of_mem_filter (p := fun r => !withdrawn neighbor advertisement r) ?_
  by_cases hhop : r.nextHop = neighbor
  · have hself := hother.resolve_left (not_not.mpr hhop)
    rw [applyRoutes, applyRouteList_frame neighbor currentTime linkCost hkept hnamed
      fun _ _ _ => hself] at hfind
    exact (routingFindRoute_some hfind).1
  · have hfirst := applyRouteList_other neighbor currentTime linkCost hkept hnamed hfind hhop
    exact (routingFindRoute_some hfirst).1

theorem applyRoutes_effect (currentTime linkCost : Nat) (hsound : TableSound table)
    (hnamed : RoutesNamed advertisement.routes)
    (hdistinct : (advertisement.routes.map Route.destinationNode).Nodup) :
    UpdateEffect neighbor linkCost advertisement table
      (applyRoutes table neighbor advertisement currentTime linkCost).1 := by
  let kept := table.filter fun r => !withdrawn neighbor advertisement r
  have hkept : TableSound kept := hsound.filter _
  have hlist : (applyRoutes table neighbor advertisement currentTime linkCost).1
      = (applyRouteList neighbor currentTime linkCost advertisement.routes kept).1 := rfl
  have hafter := applyRouteList_sound neighbor currentTime linkCost hkept hnamed
  have hstays : ∀ r ∈ table, r.nextHop ≠ neighbor ∨ r.destinationNode = neighbor → r ∈ kept := by
    intro r hr hother
    refine List.mem_filter.mpr ⟨hr, ?_⟩
    rw [Bool.not_eq_true', Bool.eq_false_iff, Ne, withdrawn_eq_true (hsound.named r hr) hnamed]
    intro h
    exact hother.elim (fun hne => hne h.1) h.2.1
  rw [hlist]
  constructor
  case advertised =>
    exact fun r hr hhop hself => applyRoutes_advertised hsound hnamed hr hhop hself
  case others =>
    exact fun r hr hother => applyRoutes_others hsound hnamed hr hother
  case better =>
    intro r hr hhop
    have hfind := routingFindRoute_of_mem hkept.distinct (hstays r hr (.inl hhop))
    rcases applyRouteList_better neighbor currentTime linkCost hkept hnamed hdistinct hfind hhop
      with hsame | ⟨r', hr', hhop', hlower⟩
    · exact .inl (routingFindRoute_some hsame).1
    · refine .inr ⟨r', (routingFindRoute_some hr').1, (routingFindRoute_some hr').2, hhop', ?_⟩
      rwa [hhop']
  case direct =>
    intro r hr hself
    have hfind := routingFindRoute_of_mem hkept.distinct (hstays r hr (.inr hself))
    rw [← applyRouteList_frame neighbor currentTime linkCost hkept hnamed fun _ _ _ => hself]
      at hfind
    exact (routingFindRoute_some hfind).1
  case sound => exact hafter
  case bounded =>
    intro hlength
    exact (applyRouteList_length neighbor currentTime linkCost hkept hnamed).2
      ((List.length_filter_le _ _).trans hlength)

/-- What is left after an accepted update, whichever overload is called, and
the metric of a candidate as it is computed. -/
theorem distanceVectorUpdate_effect (neighbor : NodeId) (currentTime : Nat) (linkCost : UInt32)
    (hsound : TableSound table) (hnamed : RoutesNamed advertisement.routes)
    (hdistinct : (advertisement.routes.map Route.destinationNode).Nodup) :
    (∀ originStates,
        (distanceVectorUpdate table neighbor advertisement currentTime linkCost.toNat
            originStates).accepted = true →
        UpdateEffect neighbor linkCost.toNat advertisement table
          (distanceVectorUpdate table neighbor advertisement currentTime linkCost.toNat
            originStates).table)
      ∧ (∀ lastKnownSeq,
        (distanceVectorUpdateSequenced table neighbor advertisement currentTime linkCost.toNat
            lastKnownSeq).accepted = true →
        UpdateEffect neighbor linkCost.toNat advertisement table
          (distanceVectorUpdateSequenced table neighbor advertisement currentTime linkCost.toNat
            lastKnownSeq).table)
      ∧ ∀ metric, (cappedMetric linkCost metric).toNat
          = min routeMetricInfinity (linkCost.toNat + metric.toNat) := by
  have heffect := @applyRoutes_effect neighbor table advertisement currentTime linkCost.toNat hsound
    hnamed hdistinct
  refine ⟨?_, ?_, cappedMetric_toNat linkCost⟩
  · intro originStates haccepted
    rcases distanceVectorUpdate_outcome originStates with ⟨hno, -⟩ | ⟨-, htable, -⟩
    · rw [hno] at haccepted
      cases haccepted
    · rwa [htable]
  · intro lastKnownSeq haccepted
    rcases distanceVectorUpdateSequenced_outcome lastKnownSeq with ⟨hno, -⟩ | ⟨-, htable, -⟩
    · rw [hno] at haccepted
      cases haccepted
    · rwa [htable]

/-! ## Reporting a change -/

theorem tuple_eq_iff {r r' : Route} : r.tuple = r'.tuple ↔ r.untimed = r'.untimed := by
  simp only [Route.tuple, Prod.mk.injEq, untimed_eq_iff]
  tauto

theorem mem_routeTuples {t : NodeId × IPv6 × NodeId × Nat} :
    t ∈ routeTuples table ↔ ∃ r ∈ table, r.tuple = t := by
  simp [routeTuples]

/-- The tuples are the same when each destination has the same route, up to
its time. -/
theorem routeTuples_eq_iff {table' : RouteTable} (hsound : TableSound table)
    (hsound' : TableSound table') :
    routeTuples table = routeTuples table' ↔ ∀ dest,
      (routingFindRoute table dest).map Route.untimed
        = (routingFindRoute table' dest).map Route.untimed := by
  have key : ∀ {left right : RouteTable}, TableSound right →
      (∀ dest, (routingFindRoute left dest).map Route.untimed
        = (routingFindRoute right dest).map Route.untimed) → TableSound left →
      routeTuples left ⊆ routeTuples right := by
    intro left right hright hsame hleft t ht
    obtain ⟨r, hr, rfl⟩ := mem_routeTuples.mp ht
    have hfind := hsame r.destinationNode
    rw [routingFindRoute_of_mem hleft.distinct hr] at hfind
    obtain ⟨r', hr', huntimed⟩ := Option.map_eq_some_iff.mp hfind.symm
    exact mem_routeTuples.mpr ⟨r', (routingFindRoute_some hr').1, tuple_eq_iff.mpr huntimed⟩
  constructor
  · intro heq dest
    cases hfind : routingFindRoute table dest with
    | some r =>
        obtain ⟨hr, rfl⟩ := routingFindRoute_some hfind
        have hmem : r.tuple ∈ routeTuples table' := heq ▸ mem_routeTuples.mpr ⟨r, hr, rfl⟩
        obtain ⟨r', hr', htuple⟩ := mem_routeTuples.mp hmem
        have huntimed := tuple_eq_iff.mp htuple
        rw [← (untimed_eq_iff.mp huntimed).2.1, routingFindRoute_of_mem hsound'.distinct hr']
        exact congrArg some huntimed.symm
    | none =>
        cases hfind' : routingFindRoute table' dest with
        | none => rfl
        | some r' =>
            obtain ⟨hr', rfl⟩ := routingFindRoute_some hfind'
            have hmem : r'.tuple ∈ routeTuples table := heq ▸ mem_routeTuples.mpr ⟨r', hr', rfl⟩
            obtain ⟨r, hr, htuple⟩ := mem_routeTuples.mp hmem
            have huntimed := tuple_eq_iff.mp htuple
            exact absurd (untimed_eq_iff.mp huntimed).2.1
              (routingFindRoute_eq_none.mp hfind r hr)
  · intro hsame
    exact (key hsound' hsame hsound).antisymm (key hsound (fun dest => (hsame dest).symm) hsound')

theorem applyRoutes_flag : (applyRoutes table neighbor advertisement currentTime linkCost).2
    = (decide ((table.filter fun r => !withdrawn neighbor advertisement r).length ≠ table.length)
      || (applyRouteList neighbor currentTime linkCost advertisement.routes
        (table.filter fun r => !withdrawn neighbor advertisement r)).2) := rfl

/-- A change of the tuples is reported. -/
theorem applyRoutes_reported (hsound : TableSound table)
    (hnamed : RoutesNamed advertisement.routes)
    (hdiffer : routeTuples (applyRoutes table neighbor advertisement currentTime linkCost).1
      ≠ routeTuples table) :
    (applyRoutes table neighbor advertisement currentTime linkCost).2 = true := by
  by_contra hflag
  rw [Bool.not_eq_true, applyRoutes_flag, Bool.or_eq_false_iff, decide_eq_false_iff_not,
    not_not, List.length_filter_eq_length_iff, ← List.filter_eq_self] at hflag
  obtain ⟨hkept, hflag⟩ := hflag
  rw [hkept] at hflag
  refine hdiffer ((routeTuples_eq_iff (applyRoutes_sound currentTime linkCost hsound hnamed) hsound).mpr fun dest => ?_)
  simp only [applyRoutes, hkept]
  exact applyRouteList_find_unchanged neighbor currentTime linkCost hsound hnamed hflag dest

/-- What is reported is a change, where the advertised routes agree. -/
theorem applyRoutes_exact (hsound : TableSound table) (hnamed : RoutesNamed advertisement.routes)
    (hagree : Agreeing neighbor linkCost advertisement.routes)
    (hflag : (applyRoutes table neighbor advertisement currentTime linkCost).2 = true) :
    routeTuples (applyRoutes table neighbor advertisement currentTime linkCost).1
      ≠ routeTuples table := by
  rw [Ne, routeTuples_eq_iff (applyRoutes_sound currentTime linkCost hsound hnamed) hsound, not_forall]
  simp only [applyRoutes]
  by_cases hall : ∀ r ∈ table, (!withdrawn neighbor advertisement r) = true
  · rw [applyRoutes_flag, List.filter_eq_self.mpr hall] at hflag
    rw [List.filter_eq_self.mpr hall]
    simp only [ne_eq, not_true_eq_false, decide_false, Bool.false_or] at hflag
    exact applyRouteList_changed neighbor currentTime linkCost hsound hnamed hagree hflag
  · -- a route that is withdrawn does not come back
    obtain ⟨r, hr, hwithdrawn⟩ := not_forall₂.mp hall
    rw [Bool.not_eq_true', Bool.not_eq_false] at hwithdrawn
    have hnone := ((withdrawn_eq_true (hsound.named r hr) hnamed).mp hwithdrawn).2.2
    refine ⟨r.destinationNode, ?_⟩
    rw [applyRouteList_frame neighbor currentTime linkCost (hsound.filter _) hnamed
        fun a ha h => absurd h (hnone a ha),
      routingFindRoute_filter hsound.distinct, routingFindRoute_of_mem hsound.distinct hr]
    simp [Option.filter, hwithdrawn]

/-- Applied once, routes that agree are quiet. -/
theorem applyRoutes_again (later : Nat) {again : RouteAdvertisement} (hsound : TableSound table)
    (hnamed : RoutesNamed advertisement.routes)
    (hagree : Agreeing neighbor linkCost advertisement.routes)
    (hsame : again.routes = advertisement.routes) :
    (applyRoutes (applyRoutes table neighbor advertisement currentTime linkCost).1 neighbor again
      later linkCost).2 = false := by
  let table' := (applyRoutes table neighbor advertisement currentTime linkCost).1
  have hafter : TableSound table' := applyRoutes_sound currentTime linkCost hsound hnamed
  have hnamed' : RoutesNamed again.routes := hsame ▸ hnamed
  have hkept : ∀ r ∈ table', (!withdrawn neighbor again r) = true := by
    intro r hr
    rw [Bool.not_eq_true', Bool.eq_false_iff, Ne, withdrawn_eq_true (hafter.named r hr) hnamed']
    rintro ⟨hhop, hself, hnone⟩
    obtain ⟨a, ha, hdest, -⟩ := applyRoutes_advertised hsound hnamed hr hhop hself
    exact hnone a (hsame ▸ ha) hdest
  have hquiet := applyRouteList_settled neighbor later linkCost hafter hnamed
    (applyRouteList_settles neighbor currentTime linkCost (hsound.filter _) hnamed hagree)
  rw [applyRoutes_flag, List.filter_eq_self.mpr hkept, hsame, hquiet]
  simp [table']

/-- Where a destination is advertised more than once, it is with one metric. -/
def OneMetric (neighbor : NodeId) (linkCost : Nat) (routes : List Route) : Prop :=
  ∀ a ∈ routes, ∀ b ∈ routes, a.destinationNode = b.destinationNode →
    a.destinationNode ≠ neighbor → a.metricVia linkCost = b.metricVia linkCost

theorem OneMetric.agreeing {network : IPv6} {routes : List Route}
    (h : OneMetric neighbor linkCost routes) (haddressed : Addressed network routes) :
    Agreeing neighbor linkCost routes := by
  intro a ha b hb hdest hself
  have haddress : a.destination = b.destination := by
    rw [haddressed a ha, haddressed b hb, hdest]
  exact ⟨hdest, haddress, h a ha b hb hdest hself⟩

section
variable {accepted accepted' changed changed' : Bool} {after after' : RouteTable}

/-- Either overload reports what changes the tuples. -/
theorem UpdateOutcome.reported
    (h : UpdateOutcome table neighbor advertisement currentTime linkCost accepted after changed)
    (hsound : TableSound table) (hnamed : RoutesNamed advertisement.routes)
    (hdiffer : routeTuples after ≠ routeTuples table) : changed = true := by
  rcases h with ⟨-, rfl, -⟩ | ⟨-, rfl, rfl⟩
  · exact absurd rfl hdiffer
  · exact applyRoutes_reported hsound hnamed hdiffer

/-- And nothing else, where the advertised routes agree. -/
theorem UpdateOutcome.exact
    (h : UpdateOutcome table neighbor advertisement currentTime linkCost accepted after changed)
    (hsound : TableSound table) (hnamed : RoutesNamed advertisement.routes)
    (hagree : Agreeing neighbor linkCost advertisement.routes) :
    changed = true ↔ routeTuples after ≠ routeTuples table := by
  refine ⟨fun hflag => ?_, h.reported hsound hnamed⟩
  rcases h with ⟨-, -, rfl⟩ | ⟨-, rfl, rfl⟩
  · cases hflag
  · exact applyRoutes_exact hsound hnamed hagree hflag

/-- The routes that were applied are quiet when they come again. -/
theorem UpdateOutcome.quiet {later : Nat} {sequenceNumber : UInt64}
    (h : UpdateOutcome table neighbor advertisement currentTime linkCost accepted after changed)
    (h' : UpdateOutcome after neighbor { advertisement with sequenceNumber } later linkCost
      accepted' after' changed')
    (hsound : TableSound table) (hnamed : RoutesNamed advertisement.routes)
    (hagree : Agreeing neighbor linkCost advertisement.routes) (haccepted : accepted = true) :
    changed' = false := by
  rcases h with ⟨hno, -⟩ | ⟨-, rfl, -⟩
  · rw [haccepted] at hno
    cases hno
  · rcases h' with ⟨-, -, hflag⟩ | ⟨-, -, hflag⟩
    · exact hflag
    · rw [hflag]
      exact applyRoutes_again later hsound hnamed hagree rfl

end

/-- A change of the tuples is always reported. Where no destination is
advertised with two metrics, nothing else is, and a repetition is quiet. -/
theorem routesChanged_exact {network : IPv6} (neighbor : NodeId) (currentTime linkCost : Nat)
    (hsound : TableSound table)
    (hvalid : validateRouteAdvertisement advertisement network = .ok ()) :
    (∀ originStates,
        routeTuples (distanceVectorUpdate table neighbor advertisement currentTime linkCost
            originStates).table ≠ routeTuples table →
        (distanceVectorUpdate table neighbor advertisement currentTime linkCost
          originStates).routesChanged = true)
      ∧ (∀ lastKnownSeq,
        routeTuples (distanceVectorUpdateSequenced table neighbor advertisement currentTime linkCost
            lastKnownSeq).table ≠ routeTuples table →
        (distanceVectorUpdateSequenced table neighbor advertisement currentTime linkCost
          lastKnownSeq).routesChanged = true)
      ∧ (OneMetric neighbor linkCost advertisement.routes →
        (∀ originStates,
            (distanceVectorUpdate table neighbor advertisement currentTime linkCost
                originStates).routesChanged = true
              ↔ routeTuples (distanceVectorUpdate table neighbor advertisement currentTime linkCost
                  originStates).table ≠ routeTuples table)
          ∧ (∀ lastKnownSeq,
            (distanceVectorUpdateSequenced table neighbor advertisement currentTime linkCost
                lastKnownSeq).routesChanged = true
              ↔ routeTuples (distanceVectorUpdateSequenced table neighbor advertisement currentTime
                  linkCost lastKnownSeq).table ≠ routeTuples table)
          ∧ (∀ originStates originStates' later sequenceNumber,
            (distanceVectorUpdate table neighbor advertisement currentTime linkCost
                originStates).accepted = true →
            (distanceVectorUpdate (distanceVectorUpdate table neighbor advertisement currentTime
                linkCost originStates).table neighbor { advertisement with sequenceNumber } later
                linkCost originStates').routesChanged = false)
          ∧ ∀ lastKnownSeq lastKnownSeq' later sequenceNumber,
            (distanceVectorUpdateSequenced table neighbor advertisement currentTime linkCost
                lastKnownSeq).accepted = true →
            (distanceVectorUpdateSequenced (distanceVectorUpdateSequenced table neighbor advertisement
                currentTime linkCost lastKnownSeq).table neighbor
                { advertisement with sequenceNumber } later linkCost
                lastKnownSeq').routesChanged = false) := by
  obtain ⟨hnamed, haddressed⟩ := validateRouteAdvertisement_ok hvalid
  refine ⟨?_, ?_, ?_⟩
  · intro originStates hdiffer
    exact (distanceVectorUpdate_outcome originStates).reported hsound hnamed hdiffer
  · intro lastKnownSeq hdiffer
    exact (distanceVectorUpdateSequenced_outcome lastKnownSeq).reported hsound hnamed hdiffer
  · intro honce
    have hagree := honce.agreeing haddressed
    refine ⟨?_, ?_, ?_, ?_⟩
    · intro originStates
      exact (distanceVectorUpdate_outcome originStates).exact hsound hnamed hagree
    · intro lastKnownSeq
      exact (distanceVectorUpdateSequenced_outcome lastKnownSeq).exact hsound hnamed hagree
    · intro originStates originStates' later sequenceNumber haccepted
      exact (distanceVectorUpdate_outcome originStates).quiet
        (distanceVectorUpdate_outcome originStates') hsound hnamed hagree haccepted
    · intro lastKnownSeq lastKnownSeq' later sequenceNumber haccepted
      exact (distanceVectorUpdateSequenced_outcome lastKnownSeq).quiet
        (distanceVectorUpdateSequenced_outcome lastKnownSeq') hsound hnamed hagree haccepted

end

/-! ## An example -/

/-- Node number `n`, with the same octet everywhere. -/
def numberedNode (n : UInt8) : NodeId := repeated 32 n

def numberedRoute (destination nextHop : UInt8) (metric : Nat) : Route :=
  routeCreate (virtualAddress (zero 16) (numberedNode destination)) (numberedNode nextHop) metric 0
    (numberedNode destination)

/-- Node 2 advertises these destinations with these metrics. -/
def advertisementOfTwo (routes : List (UInt8 × Nat)) : RouteAdvertisement where
  sender := numberedNode 2
  generation := 1
  sequenceNumber := 1
  routes := routes.map fun route => numberedRoute route.1 2 route.2

/-- Node 3 is reached through node 1, node 4 and node 2 itself through node 2. -/
def tableOfThree : RouteTable :=
  [numberedRoute 3 1 9, numberedRoute 4 2 3, numberedRoute 2 2 1]

theorem tableOfThree_sound : TableSound tableOfThree :=
  ⟨by decide, by decide⟩

theorem distanceVectorUpdate_effect_of_three :
    UpdateEffect (numberedNode 2) (1 : UInt32).toNat (advertisementOfTwo [(3, 2)]) tableOfThree
      (distanceVectorUpdate tableOfThree (numberedNode 2) (advertisementOfTwo [(3, 2)]) 7
        (1 : UInt32).toNat none).table := by
  have hnamed : RoutesNamed (advertisementOfTwo [(3, 2)]).routes := by
    unfold RoutesNamed
    decide
  exact (distanceVectorUpdate_effect (numberedNode 2) 7 1 tableOfThree_sound hnamed
    (by decide)).1 none (by decide)

theorem routesChanged_exact_of_three :
    (distanceVectorUpdate tableOfThree (numberedNode 2) (advertisementOfTwo [(3, 2)]) 7 1
        none).routesChanged = true
      ↔ routeTuples (distanceVectorUpdate tableOfThree (numberedNode 2)
          (advertisementOfTwo [(3, 2)]) 7 1 none).table ≠ routeTuples tableOfThree := by
  have hvalid : validateRouteAdvertisement (advertisementOfTwo [(3, 2)]) (zero 16) = .ok () := by
    decide
  have honce : OneMetric (numberedNode 2) 1 (advertisementOfTwo [(3, 2)]).routes := by
    unfold OneMetric
    decide
  exact ((routesChanged_exact (numberedNode 2) 7 1 tableOfThree_sound hvalid).2.2 honce).1 none

/-- Node 2 advertises node 5 with 9 and then with 5. That is applied once, and
its repetition is reported as a change: the route goes to 9 and back again. -/
theorem routesChanged_repeated :
    ¬ ∀ (network : IPv6) (table : RouteTable) (neighbor : NodeId)
      (advertisement : RouteAdvertisement) (currentTime linkCost : Nat)
      (originStates : Option RouteOriginStates),
      TableSound table → validateRouteAdvertisement advertisement network = .ok () →
      ((distanceVectorUpdate table neighbor advertisement currentTime linkCost
          originStates).routesChanged = true
        ↔ routeTuples (distanceVectorUpdate table neighbor advertisement currentTime linkCost
            originStates).table ≠ routeTuples table) := by
  intro h
  let advertisement := advertisementOfTwo [(5, 9), (5, 5)]
  let table := (distanceVectorUpdate [] (numberedNode 2) advertisement 7 1 none).table
  have hsound : TableSound table := ⟨by decide, by decide⟩
  have hflag : (distanceVectorUpdate table (numberedNode 2) { advertisement with sequenceNumber := 2 }
      9 1 none).routesChanged = true := by
    decide
  have hsame : routeTuples (distanceVectorUpdate table (numberedNode 2)
        { advertisement with sequenceNumber := 2 } 9 1 none).table = routeTuples table := by
    decide
  exact (h (zero 16) table (numberedNode 2) _ 9 1 none hsound (by decide)).mp hflag hsame

end Madoka

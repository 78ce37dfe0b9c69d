import Madoka.Daemon.Turns

/-!
# Fast Path

A neighbour's advertisement is merged into the table at once, and the rebuild
is left out when nothing changed (`run_session` of `core/daemon.cpp`). Then
the rebuild would not have changed anything either, as long as what that
neighbour had advertised before names each destination once.
-/

namespace Madoka

open Octets DistanceVector Threshold

/-! ## An update that changes nothing -/

/-- The route there is has no reason to change for an advertised route. -/
structure Unmoved (neighbor : NodeId) (advertised existing : Route) : Prop where
  finite : 1 + advertised.metric < routeMetricInfinity →
    routeOffer existing ≤ offer (1 + advertised.metric) neighbor
      ∧ (existing.nextHop = neighbor → existing.metric = 1 + advertised.metric)
  infinite : routeMetricInfinity ≤ 1 + advertised.metric → existing.nextHop = neighbor →
    existing.metric = routeMetricInfinity

section
variable {neighbor : NodeId} {currentTime : Nat} {table : RouteTable}

theorem replaceRoute_unchanged {candidate existing : Route} (hcandidate : candidate.nextHop = neighbor)
    (h : (replaceRoute neighbor currentTime candidate existing).2 = false) :
    (replaceRoute neighbor currentTime candidate existing).1.untimed = existing.untimed
      ∧ routeOffer existing ≤ offer candidate.metric neighbor
      ∧ (existing.nextHop = neighbor → existing.metric = candidate.metric) := by
  unfold replaceRoute at h ⊢
  dsimp only at h ⊢
  split_ifs at h ⊢ with htaken hchanged hrefresh
  · simp only [not_or, not_not] at hchanged
    refine ⟨rfl, offer_le.mpr (.inr ⟨hchanged.2.2.2, hrefresh.le⟩), fun _ => hchanged.2.2.2⟩
  · simp only [not_or, not_not] at hchanged
    exact absurd (hchanged.2.2.1.trans hcandidate) hrefresh
  · simp only [not_or, not_and, not_lt] at htaken
    refine ⟨rfl, offer_le.mpr ?_, fun hhop => absurd hhop htaken.2.2⟩
    rcases htaken.1.lt_or_eq with hlt | heq
    · exact .inl hlt
    · exact .inr ⟨heq, htaken.2.1 heq.symm⟩

theorem meetExisting_unchanged {advertised existing : Route}
    (h : (meetExisting neighbor currentTime 1 advertised existing).2 = false) :
    (meetExisting neighbor currentTime 1 advertised existing).1.untimed = existing.untimed
      ∧ Unmoved neighbor advertised existing := by
  unfold meetExisting at h ⊢
  by_cases hfinite : 1 + advertised.metric < routeMetricInfinity
  · rw [if_pos hfinite] at h ⊢
    have hreplace := replaceRoute_unchanged rfl h
    exact ⟨hreplace.1, fun _ => hreplace.2, fun hinf => absurd hfinite (not_lt.mpr hinf)⟩
  · rw [if_neg hfinite] at h ⊢
    unfold poisonRoute at h ⊢
    split_ifs at h ⊢ with hpoison
    refine ⟨rfl, fun hfin => absurd hfin hfinite, fun _ hhop => ?_⟩
    by_contra hmetric
    exact hpoison ⟨hhop, hmetric⟩

theorem applyRoute_unchanged {advertised : Route} (hsound : TableSound table)
    (hnamed : advertised.destinationNode ≠ zero 32) (hne : advertised.destinationNode ≠ neighbor)
    (h : (applyRoute neighbor currentTime 1 table advertised).2 = false) :
    (applyRoute neighbor currentTime 1 table advertised).1.map Route.untimed
        = table.map Route.untimed
      ∧ (∀ r, routingFindRoute table advertised.destinationNode = some r →
          Unmoved neighbor advertised r)
      ∧ (routingFindRoute table advertised.destinationNode = none →
          1 + advertised.metric < routeMetricInfinity → maxRouteTableEntries ≤ table.length) := by
  cases hfind : routingFindRoute table advertised.destinationNode with
  | some r =>
      obtain ⟨hr, hdest⟩ := routingFindRoute_some hfind
      obtain ⟨before, after, rfl⟩ := List.append_of_mem hr
      rw [applyRoute_present hsound hnamed hne hdest.symm] at h ⊢
      obtain ⟨huntimed, hunmoved⟩ := meetExisting_unchanged h
      refine ⟨by simp [huntimed], ?_, ?_⟩
      · intro s hs
        rw [← Option.some.inj hs]
        exact hunmoved
      · intro hnone
        cases hnone
  | none =>
      rw [applyRoute_absent hsound hnamed hne hfind] at h ⊢
      by_cases hadd : 1 + advertised.metric < routeMetricInfinity
          ∧ table.length < maxRouteTableEntries
      · rw [if_pos hadd] at h
        cases h
      · rw [if_neg hadd]
        refine ⟨rfl, ?_, ?_⟩
        · intro r hr
          cases hr
        · intro _ hfinite
          by_contra hroom
          exact hadd ⟨hfinite, not_le.mp hroom⟩

/-- Every route of the list has changed nothing, measured by the table before
the list. -/
theorem applyRouteList_unchanged {routes : List Route} (hsound : TableSound table)
    (hnamed : RoutesNamed routes)
    (h : (applyRouteList neighbor currentTime 1 routes table).2 = false) :
    (applyRouteList neighbor currentTime 1 routes table).1.map Route.untimed
        = table.map Route.untimed
      ∧ ∀ a ∈ routes, a.destinationNode ≠ neighbor →
        (∀ r, routingFindRoute table a.destinationNode = some r → Unmoved neighbor a r)
        ∧ (routingFindRoute table a.destinationNode = none →
            1 + a.metric < routeMetricInfinity → maxRouteTableEntries ≤ table.length) := by
  induction routes generalizing table with
  | nil => exact ⟨rfl, fun a ha => absurd ha List.not_mem_nil⟩
  | cons b rest ih =>
      have hb := hnamed b List.mem_cons_self
      rw [applyRouteList] at h ⊢
      obtain ⟨hfirst, hlater⟩ := Bool.or_eq_false_iff.mp h
      have hrestNamed : RoutesNamed rest := fun a ha => hnamed a (List.mem_cons_of_mem _ ha)
      by_cases hself : b.destinationNode = neighbor
      · rw [applyRoute_self hself] at hlater ⊢
        obtain ⟨huntimed, hall⟩ := ih hsound hrestNamed hlater
        refine ⟨huntimed, fun a ha hne => ?_⟩
        rcases List.mem_cons.mp ha with rfl | ha
        · exact absurd hself hne
        · exact hall a ha hne
      · obtain ⟨hstep, hbUnmoved, hbFull⟩ := applyRoute_unchanged hsound hb hself hfirst
        have hsound' : TableSound (applyRoute neighbor currentTime 1 table b).1 :=
          (applyRoute_spec hsound hb hself).1
        obtain ⟨huntimed, hall⟩ := ih hsound' hrestNamed hlater
        refine ⟨huntimed.trans hstep, fun a ha hne => ?_⟩
        rcases List.mem_cons.mp ha with rfl | ha
        · exact ⟨hbUnmoved, hbFull⟩
        · -- the table has changed in its times only
          obtain ⟨hunmoved, hfull⟩ := hall a ha hne
          have hsame : SameRoutes (applyRoute neighbor currentTime 1 table b).1 table :=
            .of_eq hstep
          have hfind := hsame.find hsound a.destinationNode
          refine ⟨fun r hr => ?_, fun hnone hfinite => ?_⟩
          · rw [hr] at hfind
            obtain ⟨s, hs, hsr⟩ := Option.map_eq_some_iff.mp hfind
            obtain ⟨-, -, hhop, hmetric⟩ := untimed_eq_iff.mp hsr
            have hs' := hunmoved s hs
            refine ⟨fun hfin => ?_, fun hinf => ?_⟩
            · have := hs'.finite hfin
              rwa [routeOffer, hhop, hmetric] at this
            · have := hs'.infinite hinf
              rwa [hhop, hmetric] at this
          · rw [hnone, Option.map_none, Option.map_eq_none_iff] at hfind
            have hlength := hfull hfind hfinite
            rwa [← List.length_map (f := Route.untimed), hstep, List.length_map] at hlength

/-- An update that reports no change: only times have changed, no route
through the neighbour was withdrawn, and every advertised route met one that
had no reason to change. -/
theorem applyRoutes_unchanged {advertisement : RouteAdvertisement} (hsound : TableSound table)
    (hnamed : RoutesNamed advertisement.routes)
    (h : (applyRoutes table neighbor advertisement currentTime 1).2 = false) :
    (applyRoutes table neighbor advertisement currentTime 1).1.map Route.untimed
        = table.map Route.untimed
      ∧ (∀ r ∈ table, withdrawn neighbor advertisement r = false)
      ∧ ∀ a ∈ advertisement.routes, a.destinationNode ≠ neighbor →
        (∀ r, routingFindRoute table a.destinationNode = some r → Unmoved neighbor a r)
        ∧ (routingFindRoute table a.destinationNode = none →
            1 + a.metric < routeMetricInfinity → maxRouteTableEntries ≤ table.length) := by
  unfold applyRoutes at h ⊢
  obtain ⟨hlength, hlist⟩ := Bool.or_eq_false_iff.mp h
  rw [decide_eq_false_iff_not, not_not] at hlength
  have hkeeps := List.length_filter_eq_length_iff.mp hlength
  have hkept : (table.filter fun r => !withdrawn neighbor advertisement r) = table :=
    List.filter_eq_self.mpr hkeeps
  rw [hkept] at hlist ⊢
  obtain ⟨huntimed, hall⟩ := applyRouteList_unchanged hsound hnamed hlist
  exact ⟨huntimed, fun r hr => by simpa using hkeeps r hr, hall⟩

end

/-! ## The rebuild that is left out -/

/-- Topologies that look the same to the rebuild. -/
structure SameView (peers : List Peer) (timestamp : Nat) (peers' : List Peer) (timestamp' : Nat) :
    Prop where
  live : ∀ id, (∃ p ∈ peers, p.id = id ∧ peerIsAlive p timestamp peerTimeoutMs)
    ↔ ∃ p ∈ peers', p.id = id ∧ peerIsAlive p timestamp' peerTimeoutMs
  connected : ∀ id, isConnected peers id = isConnected peers' id

theorem entryOffer_directFor (peers : List Peer) (timestamp : Nat) (dest : NodeId) :
    (∃ p ∈ peers, p.id = dest ∧ peerIsAlive p timestamp peerTimeoutMs)
        ∧ entryOffer (directFor peers timestamp dest) = ↑(offer 1 dest)
      ∨ (¬ ∃ p ∈ peers, p.id = dest ∧ peerIsAlive p timestamp peerTimeoutMs)
        ∧ entryOffer (directFor peers timestamp dest) = ⊤ := by
  cases hfind : directFor peers timestamp dest with
  | some r =>
      obtain ⟨p, hp, rfl, halive, rfl⟩ := directFor_some hfind
      exact .inl ⟨⟨p, hp, rfl, halive⟩, rfl⟩
  | none =>
      refine .inr ⟨?_, rfl⟩
      rintro ⟨p, hp, hid, halive⟩
      rw [directFor, Option.map_eq_none_iff, List.find?_eq_none] at hfind
      exact hfind p hp (decide_eq_true ⟨hid, halive⟩)

theorem SameView.direct {peers peers' : List Peer} {timestamp timestamp' : Nat}
    (h : SameView peers timestamp peers' timestamp') (dest : NodeId) :
    entryOffer (directFor peers timestamp dest) = entryOffer (directFor peers' timestamp' dest) := by
  rcases entryOffer_directFor peers timestamp dest with ⟨hlive, hoffer⟩ | ⟨hlive, hoffer⟩ <;>
    rcases entryOffer_directFor peers' timestamp' dest with ⟨hlive', hoffer'⟩ | ⟨hlive', hoffer'⟩
  · rw [hoffer, hoffer']
  · exact absurd ((h.live dest).mp hlive) hlive'
  · exact absurd ((h.live dest).mpr hlive') hlive
  · rw [hoffer, hoffer']

theorem SameView.neighbors {peers peers' : List Peer} {timestamp timestamp' : Nat}
    (h : SameView peers timestamp peers' timestamp') (ads : RouteAdvertisements) :
    advertisingNeighbors peers ads = advertisingNeighbors peers' ads := by
  unfold advertisingNeighbors
  rw [funext h.connected]

theorem SameView.offersFor {peers peers' : List Peer} {timestamp timestamp' : Nat}
    (h : SameView peers timestamp peers' timestamp') (ads : RouteAdvertisements) (dest : NodeId) :
    offersFor peers ads timestamp dest = offersFor peers' ads timestamp' dest := by
  unfold Madoka.offersFor directOffers
  rw [h.neighbors, h.live dest]

section
variable {peers : List Peer} {ads : RouteAdvertisements} {timestamp : Nat} {neighbor : NodeId}
  {table : RouteTable} {stored : StoredRouteAdvertisement} {dest : NodeId}

/-- What an update without a change says about the table's route for one
destination. -/
structure Quiet (table : RouteTable) (neighbor : NodeId) (advertisement : RouteAdvertisement) :
    Prop where
  sound : TableSound table
  kept : ∀ r ∈ table, withdrawn neighbor advertisement r = false
  unmoved : ∀ a ∈ advertisement.routes, a.destinationNode ≠ neighbor →
    (∀ r, routingFindRoute table a.destinationNode = some r → Unmoved neighbor a r)
      ∧ (routingFindRoute table a.destinationNode = none →
          ¬ 1 + a.metric < routeMetricInfinity)

/-- The advertisement offers nothing better than the table has. -/
theorem Quiet.le_bound (h : Quiet table neighbor stored.advertisement) :
    tableEntry table dest ≤ (storedTurn (ads.insert neighbor stored) dest neighbor).bound := by
  by_cases hself : dest = neighbor
  · have hskip : storedTurn (ads.insert neighbor stored) dest neighbor = .skip := by
      unfold storedTurn
      rw [AList.lookup_insert]
      exact if_pos hself
    rw [hskip]
    exact le_top
  · rw [storedTurn_insert hself]
    refine le_leastOffer.mpr fun a ha hfinite => ?_
    rw [List.mem_filter, decide_eq_true_eq] at ha
    obtain ⟨hmem, rfl⟩ := ha
    obtain ⟨hsome, hnone⟩ := h.unmoved a hmem hself
    cases hfind : routingFindRoute table a.destinationNode with
    | none => exact absurd hfinite (hnone hfind)
    | some r =>
        rw [tableEntry, hfind]
        exact WithTop.coe_le_coe.mpr ((hsome r hfind).finite hfinite).1

variable (ads) in
/-- Where the table's route is the neighbour's, the advertisement states its
metric and no other. -/
theorem Quiet.own (h : Quiet table neighbor stored.advertisement)
    (hnamed : RoutesNamed stored.advertisement.routes) (hne : dest ≠ neighbor) {metric : Nat}
    (hfinite : metric < routeMetricInfinity)
    (hentry : tableEntry table dest = ↑(offer metric neighbor)) :
    (storedTurn (ads.insert neighbor stored) dest neighbor).bound = tableEntry table dest
      ∧ (storedTurn (ads.insert neighbor stored) dest neighbor).result
        = tableEntry table dest := by
  rw [storedTurn_insert hne, hentry]
  cases hfind : routingFindRoute table dest with
  | none =>
      rw [tableEntry, hfind] at hentry
      exact absurd hentry WithTop.top_ne_coe
  | some r =>
      rw [tableEntry, hfind] at hentry
      obtain ⟨hmetric, hhop⟩ := offer_inj.mp (WithTop.coe_inj.mp hentry)
      obtain ⟨hr, rfl⟩ := routingFindRoute_some hfind
      refine routesTurn_same ?_ hfinite fun a ha => ?_
      · have hkept := h.kept r hr
        rw [withdrawn, if_neg (by simp [hhop, hne]), Bool.not_eq_false'] at hkept
        obtain ⟨b, hb, hsame⟩ := List.any_eq_true.mp hkept
        rw [sameDestination_named (h.sound.named r hr) (hnamed b hb), decide_eq_true_eq] at hsame
        refine List.ne_nil_of_mem (a := b) (List.mem_filter.mpr ⟨hb, ?_⟩)
        exact decide_eq_true hsame.symm
      · rw [List.mem_filter, decide_eq_true_eq] at ha
        have hunmoved := (h.unmoved a ha.1 (ha.2 ▸ hne)).1 r (ha.2 ▸ hfind)
        by_cases hafinite : 1 + a.metric < routeMetricInfinity
        · rw [← (hunmoved.finite hafinite).2 hhop, hmetric]
        · have hinfinite := hunmoved.infinite (not_lt.mp hafinite) hhop
          rw [hmetric] at hinfinite
          exact absurd hinfinite hfinite.ne

/-- Destination by destination: the neighbours before and after take their
turns as in the old rebuild, and the neighbour's turn may be exchanged. -/
theorem Quiet.entry (hquiet : Quiet table neighbor stored.advertisement)
    (hown : ∀ before, ads.lookup neighbor = some before → RoutesSound before.advertisement.routes)
    (hnamed : RoutesNamed stored.advertisement.routes) (hconnected : isConnected peers neighbor)
    (hentry : tableEntry table dest
      = runs ((advertisingNeighbors peers ads).map (storedTurn ads dest))
          (entryOffer (directFor peers timestamp dest))) :
    entryOffer (rebuildRoute peers (ads.insert neighbor stored) timestamp dest)
      = tableEntry table dest := by
  have hmem : neighbor ∈ advertisingNeighbors peers (ads.insert neighbor stored) :=
    mem_advertisingNeighbors.mpr ⟨(AList.mem_insert _).mpr (.inl rfl), hconnected⟩
  rw [← runs_insert stored hconnected] at hentry
  rw [rebuildRoute_turns]
  obtain ⟨before, after, hsplit⟩ := List.append_of_mem hmem
  have hnodup : (advertisingNeighbors peers (ads.insert neighbor stored)).Nodup :=
    advertisingNeighbors_nodup
  rw [hsplit, List.nodup_middle, List.nodup_cons, List.mem_append, not_or] at hnodup
  -- the other neighbours' advertisements are the old ones
  have hothers : ∀ ns : List NodeId, neighbor ∉ ns →
      ns.map (storedTurn (ads.insert neighbor stored) dest) = ns.map (storedTurn ads dest) :=
    fun ns hns => List.map_congr_left fun n hn => storedTurn_insert_ne fun heq => hns (heq ▸ hn)
  rw [hsplit, List.map_append, List.map_cons, runs_append, runs_cons] at hentry ⊢
  rw [hothers before hnodup.1.1, hothers after hnodup.1.2, hentry]
  have hplain : (storedTurn ads dest neighbor).result = (storedTurn ads dest neighbor).bound :=
    storedTurn_plain hown
  refine runs_exchange hplain (hentry ▸ hquiet.le_bound) fun hlt hstays => ?_
  -- the outcome is what the neighbour had advertised before
  rw [Turn.run_of_lt hlt, hplain] at hstays ⊢
  obtain ⟨-, -, hne, -, a, -, -, hfinite, hbound⟩ := storedTurn_bound hlt.ne_top
  rw [Turn.run_of_lt hlt, hplain, hstays, hbound] at hentry
  obtain ⟨hnewBound, hnewResult⟩ := hquiet.own ads hnamed hne hfinite hentry
  rw [hentry, ← hbound] at hnewBound hnewResult
  rw [← hnewBound] at hlt
  rw [Turn.run_of_lt hlt, hnewResult]

end

/-! ## Addresses -/

section
variable {network : IPv6} {peers : List Peer} {ads : RouteAdvertisements} {timestamp : Nat}

theorem meetExisting_addressed {neighbor : NodeId} {currentTime linkCost : Nat}
    {advertised existing : Route}
    (hadvertised : advertised.destination = virtualAddress network advertised.destinationNode)
    (hexisting : existing.destination = virtualAddress network existing.destinationNode) :
    (meetExisting neighbor currentTime linkCost advertised existing).1.destination
      = virtualAddress network
        (meetExisting neighbor currentTime linkCost advertised existing).1.destinationNode := by
  unfold meetExisting replaceRoute poisonRoute
  dsimp only
  split_ifs <;> first | exact hexisting | exact hadvertised

theorem applyRoute_addressed {neighbor : NodeId} {currentTime linkCost : Nat} {table : RouteTable}
    {advertised : Route} (hsound : TableSound table)
    (hnamed : advertised.destinationNode ≠ zero 32)
    (hadvertised : advertised.destination = virtualAddress network advertised.destinationNode)
    (htable : Addressed network table) :
    Addressed network (applyRoute neighbor currentTime linkCost table advertised).1 := by
  by_cases hself : advertised.destinationNode = neighbor
  · rw [applyRoute_self hself]
    exact htable
  · cases hfind : routingFindRoute table advertised.destinationNode with
    | some r =>
        obtain ⟨hr, hdest⟩ := routingFindRoute_some hfind
        obtain ⟨before, after, rfl⟩ := List.append_of_mem hr
        rw [applyRoute_present hsound hnamed hself hdest.symm]
        intro s hs
        rcases List.mem_append.mp hs with hs | hs
        · exact htable s (List.mem_append_left _ hs)
        · rcases List.mem_cons.mp hs with rfl | hs
          · exact meetExisting_addressed hadvertised (htable r hr)
          · exact htable s (List.mem_append_right _ (List.mem_cons_of_mem _ hs))
    | none =>
        rw [applyRoute_absent hsound hnamed hself hfind]
        split_ifs
        · intro s hs
          rcases List.mem_append.mp hs with hs | hs
          · exact htable s hs
          · rw [List.mem_singleton.mp hs]
            exact hadvertised
        · exact htable

theorem applyRouteList_addressed {neighbor : NodeId} {currentTime linkCost : Nat}
    {table : RouteTable} {routes : List Route} (hsound : TableSound table)
    (hnamed : RoutesNamed routes) (hroutes : Addressed network routes)
    (htable : Addressed network table) :
    TableSound (applyRouteList neighbor currentTime linkCost routes table).1
      ∧ Addressed network (applyRouteList neighbor currentTime linkCost routes table).1 := by
  induction routes generalizing table with
  | nil => exact ⟨hsound, htable⟩
  | cons a rest ih =>
      have ha := hnamed a List.mem_cons_self
      have hsound' : TableSound (applyRoute neighbor currentTime linkCost table a).1 := by
        by_cases hself : a.destinationNode = neighbor
        · rw [applyRoute_self hself]
          exact hsound
        · exact (applyRoute_spec hsound ha hself).1
      exact ih hsound' (fun b hb => hnamed b (List.mem_cons_of_mem _ hb))
        (fun b hb => hroutes b (List.mem_cons_of_mem _ hb))
        (applyRoute_addressed hsound ha (hroutes a List.mem_cons_self) htable)

theorem applyRoutes_addressed (neighbor : NodeId) (currentTime linkCost : Nat)
    {table : RouteTable} {advertisement : RouteAdvertisement} (hsound : TableSound table)
    (hnamed : RoutesNamed advertisement.routes) (hroutes : Addressed network advertisement.routes)
    (htable : Addressed network table) :
    TableSound (applyRoutes table neighbor advertisement currentTime linkCost).1
      ∧ Addressed network (applyRoutes table neighbor advertisement currentTime linkCost).1 :=
  applyRouteList_addressed (hsound.filter _) hnamed hroutes
    fun r hr => htable r (List.mem_of_mem_filter hr)

theorem rebuild_addressed (hpeers : PeersValid network peers) (hads : AdsValid network ads)
    (hroom : (livePeers peers timestamp).length ≤ maxRouteTableEntries) :
    Addressed network (rebuildRoutingTable peers ads timestamp) := by
  have hdirect : Addressed network (directRoutes peers timestamp) := by
    rw [directRoutes_eq hpeers.toPeersSound hroom]
    intro r hr
    obtain ⟨p, hp, rfl⟩ := List.mem_map.mp hr
    exact hpeers.addressed p (List.mem_of_mem_filter hp)
  have hfold : ∀ (neighbors : List NodeId) (table : RouteTable), TableSound table →
      Addressed network table →
      Addressed network (neighbors.foldl (applyStored ads timestamp) table) := by
    intro neighbors
    induction neighbors with
    | nil => exact fun table _ htable => htable
    | cons n rest ih =>
        intro table hsound htable
        cases hlookup : ads.lookup n with
        | none =>
            have hskip : applyStored ads timestamp table n = table := by
              simp [applyStored, hlookup]
            rw [List.foldl_cons, hskip]
            exact ih table hsound htable
        | some stored =>
            obtain ⟨hsender, hvalid⟩ := hads n stored hlookup
            obtain ⟨hnamed, hroutes⟩ := validateRouteAdvertisement_ok hvalid
            obtain ⟨hsound', htable'⟩ := applyRoutes_addressed n timestamp 1 hsound hnamed hroutes htable
            rw [List.foldl_cons, applyStored_eq hlookup hsender]
            exact ih _ hsound' htable'
  exact hfold _ _ (directRoutes_sound hpeers.toPeersSound hroom) hdirect

end

/-! ## The update and the rebuild -/

theorem distanceVectorUpdate_accepted {table : RouteTable} {neighbor : NodeId}
    {advertisement : RouteAdvertisement} {currentTime linkCost : Nat}
    {originStates : Option RouteOriginStates}
    (h : (distanceVectorUpdate table neighbor advertisement currentTime linkCost
      originStates).accepted = true) :
    advertisement.sender = neighbor
      ∧ (distanceVectorUpdate table neighbor advertisement currentTime linkCost
          originStates).table
        = (applyRoutes table neighbor advertisement currentTime linkCost).1
      ∧ (distanceVectorUpdate table neighbor advertisement currentTime linkCost
          originStates).routesChanged
        = (applyRoutes table neighbor advertisement currentTime linkCost).2 := by
  unfold distanceVectorUpdate at h ⊢
  split_ifs at h ⊢ with hrefused
  rw [not_or, not_not] at hrefused
  exact ⟨hrefused.1, rfl, rfl⟩

section
variable {network : IPv6} {peers peers' : List Peer} {timestamp timestamp' : Nat}
  {ads : RouteAdvertisements} {neighbor : NodeId} {table : RouteTable}
  {stored : StoredRouteAdvertisement}

/-- The entries of a rebuilt table, in the terms of a topology that looks the
same. -/
theorem SameRoutes.turns (htable : SameRoutes table (rebuildRoutingTable peers ads timestamp))
    (hpeers : PeersSound peers) (hads : AdsNamed ads) (hfits : Fits peers ads timestamp)
    (hview : SameView peers timestamp peers' timestamp') (dest : NodeId) :
    tableEntry table dest
      = runs ((advertisingNeighbors peers' ads).map (storedTurn ads dest))
          (entryOffer (directFor peers' timestamp' dest)) := by
  obtain ⟨hsound, hfind⟩ := rebuild_find hpeers hads hfits dest
  rw [htable.entry hsound, tableEntry, hfind, rebuildRoute_turns, hview.neighbors, hview.direct]

/-- A route of the rebuilt table leads to a live peer or was advertised, and
the neighbour's with the metric it has. -/
theorem SameRoutes.source (htable : SameRoutes table (rebuildRoutingTable peers ads timestamp))
    (hpeers : PeersSound peers) (hads : AdsNamed ads) (hfits : Fits peers ads timestamp)
    (hview : SameView peers timestamp peers' timestamp')
    (hown : ∀ before, ads.lookup neighbor = some before → RoutesSound before.advertisement.routes)
    {r : Route} (hr : r ∈ table) :
    (∃ p ∈ peers', p.id = r.destinationNode ∧ peerIsAlive p timestamp' peerTimeoutMs)
      ∨ (∃ n s, n ≠ neighbor ∧ isConnected peers' n ∧ ads.lookup n = some s
          ∧ ∃ a ∈ s.advertisement.routes, a.destinationNode = r.destinationNode
            ∧ r.destinationNode ≠ n ∧ 1 + a.metric < routeMetricInfinity)
      ∨ r.nextHop = neighbor ∧ r.destinationNode ≠ neighbor ∧ r.metric < routeMetricInfinity := by
  have hsound := htable.tableSound (rebuild_find hpeers hads hfits (zero 32)).1
  have hentry := htable.turns hpeers hads hfits hview r.destinationNode
  rw [tableEntry, routingFindRoute_of_mem hsound.distinct hr] at hentry
  rcases runs_mem ((advertisingNeighbors peers' ads).map (storedTurn ads r.destinationNode))
    (entryOffer (directFor peers' timestamp' r.destinationNode)) with
    hdirect | ⟨turn, hturn, hresult, e, hlt⟩
  · rw [hdirect] at hentry
    rcases entryOffer_directFor peers' timestamp' r.destinationNode with
      ⟨hlive, -⟩ | ⟨-, htop⟩
    · exact .inl hlive
    · rw [htop] at hentry
      exact absurd hentry WithTop.coe_ne_top
  · obtain ⟨n, hn, rfl⟩ := List.mem_map.mp hturn
    have hconnected := (mem_advertisingNeighbors.mp hn).2
    obtain ⟨s, hlookup, hne, -, a, ha, hdest, hfinite, hbound⟩ := storedTurn_bound hlt.ne_top
    by_cases hself : n = neighbor
    · subst hself
      rw [hresult, storedTurn_plain hown, hbound] at hentry
      obtain ⟨hmetric, hhop⟩ := offer_inj.mp (WithTop.coe_inj.mp hentry)
      exact .inr (.inr ⟨hhop, hne, hmetric ▸ hfinite⟩)
    · exact .inr (.inl ⟨n, s, hself, hconnected, hlookup, a, ha, hdest, hne, hfinite⟩)

/-- A table that is the rebuilt one has room for what the new advertisements
add. -/
theorem quiet_of_unchanged (hpeers : PeersSound peers) (hads : AdsNamed ads)
    (hown : ∀ before, ads.lookup neighbor = some before → RoutesSound before.advertisement.routes)
    (hfits : Fits peers ads timestamp)
    (htable : SameRoutes table (rebuildRoutingTable peers ads timestamp))
    (hview : SameView peers timestamp peers' timestamp')
    (hconnected : isConnected peers' neighbor)
    (hnamed : RoutesNamed stored.advertisement.routes)
    (hfits' : Fits peers' (ads.insert neighbor stored) timestamp') {currentTime : Nat}
    (hunchanged : (applyRoutes table neighbor stored.advertisement currentTime 1).2 = false) :
    Quiet table neighbor stored.advertisement := by
  have hsound := htable.tableSound (rebuild_find hpeers hads hfits (zero 32)).1
  obtain ⟨-, hkept, hunmoved⟩ := applyRoutes_unchanged hsound hnamed hunchanged
  obtain ⟨destinations, hcard, hcovers⟩ := hfits'
  have hstored : (ads.insert neighbor stored).lookup neighbor = some stored := AList.lookup_insert _
  -- every destination of the table is still a candidate's
  have hwithin : TableWithin destinations table := by
    intro r hr
    rcases htable.source hpeers hads hfits hview hown hr with
      ⟨p, hp, hid, halive⟩ | ⟨n, s, hn, hcon, hlookup, a, ha, hdest, hne, hfinite⟩
      | ⟨hhop, hne, hmetric⟩
    · rw [← hid]
      exact hcovers _ (.direct hp halive)
    · have hlookup' : (ads.insert neighbor stored).lookup n = some s := by
        rw [AList.lookup_insert_ne hn, hlookup]
      rw [← hdest] at hne ⊢
      exact hcovers (offeredRoute n timestamp' 1 a) (.advertised hcon hlookup' ha hne hfinite)
    · have hstill := hkept r hr
      rw [withdrawn, if_neg (by simp [hhop, hne]), Bool.not_eq_false'] at hstill
      obtain ⟨b, hb, hsame⟩ := List.any_eq_true.mp hstill
      rw [sameDestination_named (hsound.named r hr) (hnamed b hb), decide_eq_true_eq] at hsame
      have hfound := routingFindRoute_of_mem hsound.distinct hr
      rw [hsame] at hfound hne ⊢
      have hmoved := (hunmoved b hb hne).1 r hfound
      have hbfinite : 1 + b.metric < routeMetricInfinity := by
        by_contra hinf
        exact absurd (hmoved.infinite (not_lt.mp hinf) hhop) hmetric.ne
      exact hcovers (offeredRoute neighbor timestamp' 1 b)
        (.advertised hconnected hstored hb hne hbfinite)
  refine ⟨hsound, hkept, fun a ha hne => ⟨(hunmoved a ha hne).1, fun hnone hfin => ?_⟩⟩
  have hcovered : a.destinationNode ∈ destinations :=
    hcovers (offeredRoute neighbor timestamp' 1 a) (.advertised hconnected hstored ha hne hfin)
  have hroom := hwithin.has_room hsound hcard hcovered hnone
  exact absurd ((hunmoved a ha hne).2 hnone hfin) (not_le.mpr hroom)

/-- Without a change the table is the rebuilt one, whether or not the neighbour
is alive. -/
theorem applyRoutes_unchanged_sameRoutes (hpeers : PeersValid network peers)
    (hpeers' : PeersValid network peers') (hview : SameView peers timestamp peers' timestamp')
    (hads : AdsValid network ads)
    (hdistinct : ∀ before, ads.lookup neighbor = some before →
      (before.advertisement.routes.map Route.destinationNode).Nodup)
    (hfits : Fits peers ads timestamp)
    (htable : SameRoutes table (rebuildRoutingTable peers ads timestamp))
    (hconnected : isConnected peers' neighbor) (hads' : AdsValid network (ads.insert neighbor stored))
    (hfits' : Fits peers' (ads.insert neighbor stored) timestamp') {currentTime : Nat}
    (hunchanged : (applyRoutes table neighbor stored.advertisement currentTime 1).2 = false) :
    SameRoutes (applyRoutes table neighbor stored.advertisement currentTime 1).1
      (rebuildRoutingTable peers' (ads.insert neighbor stored) timestamp') := by
  have hown : ∀ before, ads.lookup neighbor = some before →
      RoutesSound before.advertisement.routes :=
    fun before hlookup => ⟨(hads.adsNamed neighbor before hlookup).2, hdistinct before hlookup⟩
  have hnamed : RoutesNamed stored.advertisement.routes :=
    (hads'.adsNamed neighbor stored (AList.lookup_insert _)).2
  have hquiet := quiet_of_unchanged hpeers.toPeersSound hads.adsNamed hown hfits htable hview
    hconnected hnamed hfits' hunchanged
  have huntimed : SameRoutes (applyRoutes table neighbor stored.advertisement currentTime 1).1
      table := .of_eq (applyRoutes_unchanged hquiet.sound hnamed hunchanged).1
  have hrebuilt := fun dest => rebuild_find hpeers'.toPeersSound hads'.adsNamed hfits' dest
  refine huntimed.trans (sameRoutes_of_entries hquiet.sound (hrebuilt (zero 32)).1
    (htable.addressed (rebuild_addressed hpeers hads (hfits.room hpeers.toPeersSound)))
    (rebuild_addressed hpeers' hads' (hfits'.room hpeers'.toPeersSound)) fun dest => ?_)
  have hentry := htable.turns hpeers.toPeersSound hads.adsNamed hfits hview dest
  rw [← hquiet.entry hown hnamed hconnected hentry, tableEntry, (hrebuilt dest).2]

theorem AdsValid.insert (h : AdsValid network ads)
    (hsender : stored.advertisement.sender = neighbor)
    (hvalid : validateRouteAdvertisement stored.advertisement network = .ok ()) :
    AdsValid network (ads.insert neighbor stored) := by
  intro n s hlookup
  by_cases hn : n = neighbor
  · rw [hn, AList.lookup_insert, Option.some.injEq] at hlookup
    rw [hn, ← hlookup]
    exact ⟨hsender, hvalid⟩
  · rw [AList.lookup_insert_ne hn] at hlookup
    exact h n s hlookup

/-- When an accepted advertisement changes no route, the table is the one that
the rebuild would compute from the new advertisements, provided that what the
neighbour had advertised before names each destination once. -/
theorem update_unchanged_sameRoutes (hpeers : PeersValid network peers)
    (hpeers' : PeersValid network peers') (hview : SameView peers timestamp peers' timestamp')
    (hads : AdsValid network ads)
    (hdistinct : ∀ before, ads.lookup neighbor = some before →
      (before.advertisement.routes.map Route.destinationNode).Nodup)
    (hfits : Fits peers ads timestamp)
    (htable : SameRoutes table (rebuildRoutingTable peers ads timestamp))
    (hneighbor : ∃ p ∈ peers, p.id = neighbor ∧ peerIsAlive p timestamp peerTimeoutMs)
    (hvalid : validateRouteAdvertisement stored.advertisement network = .ok ())
    (hfits' : Fits peers' (ads.insert neighbor stored) timestamp') {currentTime : Nat}
    {originStates : Option RouteOriginStates}
    (haccepted : (distanceVectorUpdate table neighbor stored.advertisement currentTime 1
      originStates).accepted = true)
    (hunchanged : (distanceVectorUpdate table neighbor stored.advertisement currentTime 1
      originStates).routesChanged = false) :
    SameRoutes (distanceVectorUpdate table neighbor stored.advertisement currentTime 1
        originStates).table
      (rebuildRoutingTable peers' (ads.insert neighbor stored) timestamp') := by
  obtain ⟨hsender, htable', hchanged⟩ := distanceVectorUpdate_accepted haccepted
  rw [hchanged] at hunchanged
  rw [htable']
  have hconnected : isConnected peers' neighbor := by
    obtain ⟨p, hp, rfl, halive⟩ := hneighbor
    rw [← hview.connected]
    exact isConnected_of_mem hp (peerIsAlive_connected halive)
  exact applyRoutes_unchanged_sameRoutes hpeers hpeers' hview hads hdistinct hfits htable hconnected
    (hads.insert hsender hvalid) hfits' hunchanged

end

/-- Node 2 repeats its route and adds an unreachable one; node 1 has named a
destination twice. -/
def refreshAd : RouteAdvertisement := adOf 2 [(3, 9), (4, 16)]

def beforeRefresh : RouteAdvertisements :=
  adsOf [adOf 1 [(3, 10), (3, 11)], adOf 2 [(3, 9)]]

theorem update_unchanged_refresh :
    SameRoutes
      (distanceVectorUpdate (rebuildRoutingTable [livePeer 1, livePeer 2] beforeRefresh 1000)
        (nodeOf 2) refreshAd 1500 1 none).table
      (rebuildRoutingTable [livePeer 1, livePeer 2]
        (beforeRefresh.insert (nodeOf 2) (storedAd refreshAd)) 2000) := by
  have hpeers : PeersValid overlayNetwork [livePeer 1, livePeer 2] :=
    ⟨⟨by decide, by decide⟩, by decide⟩
  have halive : ∀ p ∈ [livePeer 1, livePeer 2], peerIsAlive p 1000 peerTimeoutMs
      ∧ peerIsAlive p 2000 peerTimeoutMs := by decide
  have hview : SameView [livePeer 1, livePeer 2] 1000 [livePeer 1, livePeer 2] 2000 := by
    refine ⟨fun id => ⟨?_, ?_⟩, fun _ => rfl⟩
    · rintro ⟨p, hp, hid, -⟩
      exact ⟨p, hp, hid, (halive p hp).2⟩
    · rintro ⟨p, hp, hid, -⟩
      exact ⟨p, hp, hid, (halive p hp).1⟩
  have hads : AdsValid overlayNetwork beforeRefresh := forall_lookup (by decide)
  have hdistinct : ∀ before, beforeRefresh.lookup (nodeOf 2) = some before →
      (before.advertisement.routes.map Route.destinationNode).Nodup := by
    intro before hbefore
    have hlookup : beforeRefresh.lookup (nodeOf 2) = some (storedAd (adOf 2 [(3, 9)])) := by
      decide
    rw [hlookup] at hbefore
    cases hbefore
    decide
  have hfits : Fits [livePeer 1, livePeer 2] beforeRefresh 1000 :=
    ⟨_, by decide, covers_allDestinations⟩
  have hfits' : Fits [livePeer 1, livePeer 2]
      (beforeRefresh.insert (nodeOf 2) (storedAd refreshAd)) 2000 :=
    ⟨_, by decide, covers_allDestinations⟩
  have hneighbor : ∃ p ∈ [livePeer 1, livePeer 2], p.id = nodeOf 2
      ∧ peerIsAlive p 1000 peerTimeoutMs := ⟨livePeer 2, by simp, rfl, (halive _ (by simp)).1⟩
  have hupdate : (distanceVectorUpdate
        (rebuildRoutingTable [livePeer 1, livePeer 2] beforeRefresh 1000) (nodeOf 2)
        (storedAd refreshAd).advertisement 1500 1 none).accepted = true
      ∧ (distanceVectorUpdate
        (rebuildRoutingTable [livePeer 1, livePeer 2] beforeRefresh 1000) (nodeOf 2)
        (storedAd refreshAd).advertisement 1500 1 none).routesChanged = false := by
    decide
  exact update_unchanged_sameRoutes hpeers hpeers hview hads hdistinct hfits (.refl _) hneighbor
    (by decide) hfits' hupdate.1 hupdate.2

/-- Node 2 has advertised node 3 twice, the second time from farther away, and
then repeats only that. Nothing changes, but node 1 is closer by now. -/
theorem update_unchanged_duplicate :
    ¬ ∀ (network : IPv6) (peers peers' : List Peer) (timestamp timestamp' : Nat)
      (ads : RouteAdvertisements) (neighbor : NodeId) (table : RouteTable)
      (stored : StoredRouteAdvertisement) (currentTime : Nat)
      (originStates : Option RouteOriginStates),
      PeersValid network peers → PeersValid network peers' →
      SameView peers timestamp peers' timestamp' → AdsValid network ads →
      Fits peers ads timestamp → SameRoutes table (rebuildRoutingTable peers ads timestamp) →
      (∃ p ∈ peers, p.id = neighbor ∧ peerIsAlive p timestamp peerTimeoutMs) →
      validateRouteAdvertisement stored.advertisement network = .ok () →
      Fits peers' (ads.insert neighbor stored) timestamp' →
      (distanceVectorUpdate table neighbor stored.advertisement currentTime 1
        originStates).accepted = true →
      (distanceVectorUpdate table neighbor stored.advertisement currentTime 1
        originStates).routesChanged = false →
      SameRoutes (distanceVectorUpdate table neighbor stored.advertisement currentTime 1
          originStates).table
        (rebuildRoutingTable peers' (ads.insert neighbor stored) timestamp') := by
  intro h
  let peers := [livePeer 1, livePeer 2]
  let ads := adsOf [adOf 1 [(3, 10)], adOf 2 [(3, 9), (3, 12)]]
  have hpeers : PeersValid overlayNetwork peers :=
    ⟨⟨by decide, by decide⟩, by decide⟩
  have hsame := h overlayNetwork peers peers 1000 1000 ads (nodeOf 2)
    (rebuildRoutingTable peers ads 1000) (storedAd (adOf 2 [(3, 12)])) 1000 none hpeers hpeers
    ⟨fun _ => Iff.rfl, fun _ => rfl⟩ (forall_lookup (by decide))
    ⟨_, by decide, covers_allDestinations⟩ (.refl _)
    ⟨livePeer 2, by simp [peers], rfl, by decide⟩ (by decide)
    ⟨_, by decide, covers_allDestinations⟩ (by decide) (by decide)
  have hdiffer : ¬ SameRoutes (distanceVectorUpdate (rebuildRoutingTable peers ads 1000) (nodeOf 2)
        (adOf 2 [(3, 12)]) 1000 1 none).table
      (rebuildRoutingTable peers (ads.insert (nodeOf 2) (storedAd (adOf 2 [(3, 12)]))) 1000) := by
    unfold SameRoutes
    decide
  exact hdiffer hsame

end Madoka

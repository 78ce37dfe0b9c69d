import Madoka.Daemon.RouteChoice
import Madoka.Lib.BestTable
import Madoka.Network.UpdateEffect

/-!
# Live Hops

A rebuild of the route table as a bounded table of the best offers, also where
the destinations do not fit, and when its next hops are all alive. Direct
routes are for live peers only, but an advertisement counts as long as its
sender is connected.
-/

namespace Madoka

open Octets DistanceVector

/-! ## The offers in their order -/

/-- Whether an advertised route is offered at all. -/
def isOffered (neighbor : NodeId) (a : Route) : Bool :=
  a.destinationNode ≠ neighbor ∧ 1 + a.metric < routeMetricInfinity

/-- What a neighbour's stored advertisement offers. -/
def offersVia (ads : RouteAdvertisements) (timestamp : Nat) (neighbor : NodeId) : List Route :=
  match ads.lookup neighbor with
  | none => []
  | some stored =>
      (stored.advertisement.routes.filter (isOffered neighbor)).map
        (offeredRoute neighbor timestamp 1)

/-- What a rebuild goes through: the live peers, then the connected neighbours. -/
def offersInOrder (peers : List Peer) (ads : RouteAdvertisements) (timestamp : Nat) : List Route :=
  (livePeers peers timestamp).map (directRoute timestamp)
    ++ (advertisingNeighbors peers ads).flatMap (offersVia ads timestamp)

def putRoute (table : RouteTable) (route : Route) : RouteTable :=
  BestTable.put maxRouteTableEntries Route.destinationNode routeOffer table route

/-- A table after these offers. -/
def HoldsBest (offers : List Route) (table : RouteTable) : Prop :=
  BestTable.Holds maxRouteTableEntries Route.destinationNode routeOffer offers table

section
variable {peers : List Peer} {ads : RouteAdvertisements} {timestamp : Nat} {neighbor : NodeId}
  {table : RouteTable} {offers : List Route} {route a r : Route}

theorem HoldsBest.tableSound (h : HoldsBest offers table) (hnamed : RoutesNamed offers) :
    TableSound table where
  named r hr := hnamed r (h.mem r hr)
  distinct := h.nodup

theorem HoldsBest.foldl (h : HoldsBest offers table) (more : List Route) :
    HoldsBest (offers ++ more) (more.foldl putRoute table) :=
  BestTable.Holds.foldl h more

theorem routeOffer_lt {r r' : Route} :
    routeOffer r < routeOffer r' ↔ r.metric < r'.metric
      ∨ r.metric = r'.metric ∧ r.nextHop < r'.nextHop :=
  Prod.Lex.lt_iff

/-! ## Each step puts a route -/

theorem routingAddRoute_eq (hsound : TableSound table) (hnamed : route.destinationNode ≠ zero 32) :
    (routingAddRoute table route).2 = putRoute table route := by
  have hmatch : ∀ r ∈ table, sameDestination route r
      = decide (r.destinationNode = route.destinationNode) := by
    intro r hr
    rw [sameDestination_named hnamed (hsound.named r hr)]
    exact decide_eq_decide.mpr eq_comm
  have hwrite : ∀ r ∈ table, decide (r.destinationNode = route.destinationNode) = true →
      (if route.metric < r.metric ∨ route.metric = r.metric ∧ route.nextHop < r.nextHop then
          (route, true) else (r, false)).1
        = (if routeOffer route < routeOffer r then route else r, ()).1 := by
    intro r hr _
    simp only [routeOffer_lt]
    split <;> rfl
  have hfst := FirstMatch.update_fst_congr hmatch hwrite
  unfold routingAddRoute putRoute BestTable.put
  generalize FirstMatch.update (fun existing => sameDestination route existing) _ table = left
    at hfst ⊢
  generalize FirstMatch.update (fun existing => decide (existing.destinationNode
    = route.destinationNode)) _ table = right at hfst ⊢
  cases left with
  | none =>
      cases right with
      | none =>
          dsimp only
          split
          next hfull => rw [if_neg (not_lt.mpr hfull)]
          next hroom => rw [if_pos (not_le.mp hroom)]
      | some result => cases hfst
  | some result =>
      cases right with
      | none => cases hfst
      | some result' => exact Option.some.inj hfst

theorem putRoute_sound (hsound : TableSound table) (hnamed : route.destinationNode ≠ zero 32) :
    TableSound (putRoute table route) := by
  unfold putRoute BestTable.put
  cases hupdate : FirstMatch.update
      (fun e : Route => decide (e.destinationNode = route.destinationNode))
      (fun e => (if routeOffer route < routeOffer e then route else e, ())) table with
  | none =>
      have habsent : routingFindRoute table route.destinationNode = none := by
        refine routingFindRoute_eq_none.mpr fun r hr => ?_
        simpa using FirstMatch.update_eq_none.mp hupdate r hr
      dsimp only
      split
      · exact hsound.append hnamed habsent
      · exact hsound
  | some result =>
      obtain ⟨table', _⟩ := result
      obtain ⟨before, e, after, rfl, -, hdest, rfl, -⟩ := FirstMatch.update_eq_some hupdate
      have hdest : e.destinationNode = route.destinationNode := by simpa using hdest
      refine hsound.replace ?_
      split
      · exact hdest.symm
      · rfl

/-- The live peers, one after the other. -/
theorem directRoutes_eq_foldl (timestamp : Nat) (hnamed : ∀ p ∈ peers, p.id ≠ zero 32) :
    directRoutes peers timestamp
      = ((livePeers peers timestamp).map (directRoute timestamp)).foldl putRoute [] := by
  have key : ∀ (rest : List Peer) (table : RouteTable), (∀ p ∈ rest, p.id ≠ zero 32) →
      TableSound table →
      rest.foldl (fun table peer =>
          if peer.state ≠ .connected ∨ !peerIsAlive peer timestamp peerTimeoutMs then table
          else (routingAddRoute table (directRoute timestamp peer)).2) table
        = ((livePeers rest timestamp).map (directRoute timestamp)).foldl putRoute table := by
    intro rest
    induction rest with
    | nil =>
        intro table _ _
        rfl
    | cons p rest ih =>
        intro table hrest hsound
        have hp := hrest p List.mem_cons_self
        have htail : ∀ q ∈ rest, q.id ≠ zero 32 := fun q hq => hrest q (List.mem_cons_of_mem _ hq)
        rw [List.foldl_cons]
        by_cases halive : peerIsAlive p timestamp peerTimeoutMs
        · have hstate := peerIsAlive_connected halive
          have hlive : livePeers (p :: rest) timestamp = p :: livePeers rest timestamp := by
            simp [livePeers, halive]
          rw [if_neg (by simp [hstate, halive]), routingAddRoute_eq hsound hp, hlive]
          exact ih _ htail (putRoute_sound hsound hp)
        · have hlive : livePeers (p :: rest) timestamp = livePeers rest timestamp := by
            simp [livePeers, halive]
          rw [if_pos (by simp [halive]), hlive]
          exact ih _ htail hsound
  exact key peers [] hnamed ⟨fun r hr => absurd hr List.not_mem_nil, List.nodup_nil⟩

theorem putRoute_present {before after : RouteTable} {e : Route}
    (hsound : TableSound (before ++ e :: after))
    (hdest : e.destinationNode = route.destinationNode) :
    putRoute (before ++ e :: after) route
      = before ++ (if routeOffer route < routeOffer e then route else e) :: after := by
  have hdistinct := hsound.distinct
  rw [List.map_append, List.map_cons, List.nodup_middle, List.nodup_cons, List.mem_append,
    not_or] at hdistinct
  have hbefore : ∀ r ∈ before, decide (r.destinationNode = route.destinationNode) = false := by
    intro r hr
    refine decide_eq_false fun heq => ?_
    rw [hdest, ← heq] at hdistinct
    exact hdistinct.1.1 (List.mem_map_of_mem hr)
  unfold putRoute BestTable.put
  rw [FirstMatch.update_of_split hbefore (by simpa using hdest)]

/-- Where the route there leads elsewhere, the better one is taken. -/
theorem meetExisting_eq {e : Route} (hhop : e.nextHop ≠ neighbor) :
    (meetExisting neighbor timestamp 1 a e).1
      = if 1 + a.metric < routeMetricInfinity
            ∧ routeOffer (offeredRoute neighbor timestamp 1 a) < routeOffer e then
          offeredRoute neighbor timestamp 1 a
        else e := by
  simp only [routeOffer_lt, meetExisting, replaceRoute, poisonRoute, offeredRoute, routeCreate]
  grind

/-- An advertised route is put where nothing leads through the neighbour yet. -/
theorem applyRoute_eq (hsound : TableSound table) (hnamed : a.destinationNode ≠ zero 32)
    (hfresh : a.destinationNode ≠ neighbor →
      ∀ r ∈ table, r.destinationNode = a.destinationNode → r.nextHop ≠ neighbor) :
    (applyRoute neighbor timestamp 1 table a).1
      = if isOffered neighbor a then putRoute table (offeredRoute neighbor timestamp 1 a)
        else table := by
  by_cases hself : a.destinationNode = neighbor
  · rw [applyRoute_self hself, if_neg (by simp [isOffered, hself])]
  · cases hfind : routingFindRoute table a.destinationNode with
    | none =>
        rw [applyRoute_absent hsound hnamed hself hfind]
        have hnone : FirstMatch.update
            (fun e : Route => decide (e.destinationNode
              = (offeredRoute neighbor timestamp 1 a).destinationNode))
            (fun e => (if routeOffer (offeredRoute neighbor timestamp 1 a) < routeOffer e then
              offeredRoute neighbor timestamp 1 a else e, ())) table = none :=
          FirstMatch.update_eq_none.mpr fun r hr =>
            decide_eq_false (routingFindRoute_eq_none.mp hfind r hr)
        by_cases hfinite : 1 + a.metric < routeMetricInfinity
        · rw [if_pos (show isOffered neighbor a = true by simp [isOffered, hself, hfinite]),
            putRoute, BestTable.put, hnone]
          dsimp only
          split
          next hroom => rw [if_pos hroom.2]
          next hfull => rw [if_neg fun hroom => hfull ⟨hfinite, hroom⟩]
        · rw [if_neg fun h => hfinite h.1,
            if_neg (show ¬ isOffered neighbor a = true by simp [isOffered, hfinite])]
    | some e =>
        obtain ⟨he, hdest⟩ := routingFindRoute_some hfind
        have hhop := hfresh hself e he hdest
        obtain ⟨before, after, rfl⟩ := List.append_of_mem he
        rw [applyRoute_present hsound hnamed hself hdest.symm, meetExisting_eq hhop]
        by_cases hfinite : 1 + a.metric < routeMetricInfinity
        · rw [if_pos (show isOffered neighbor a = true by simp [isOffered, hself, hfinite]),
            @putRoute_present (offeredRoute neighbor timestamp 1 a) _ _ _ hsound hdest]
          simp only [hfinite, true_and]
        · rw [if_neg (show ¬ isOffered neighbor a = true by simp [isOffered, hfinite])]
          simp only [hfinite, false_and, if_false]

/-- The routes through a neighbour other than the one to itself. -/
def LeadsThrough (neighbor : NodeId) (r : Route) : Prop :=
  r.nextHop = neighbor ∧ r.destinationNode ≠ neighbor

theorem mem_putRoute (hr : r ∈ putRoute table route) : r ∈ table ∨ r = route := by
  unfold putRoute BestTable.put at hr
  cases hupdate : FirstMatch.update
      (fun e : Route => decide (e.destinationNode = route.destinationNode))
      (fun e => (if routeOffer route < routeOffer e then route else e, ())) table with
  | none =>
      rw [hupdate] at hr
      dsimp only at hr
      split at hr
      · exact (List.mem_append.mp hr).imp id List.mem_singleton.mp
      · exact .inl hr
  | some result =>
      rw [hupdate] at hr
      obtain ⟨table', _⟩ := result
      obtain ⟨before, e, after, rfl, -, -, rfl, -⟩ := FirstMatch.update_eq_some hupdate
      have he : e ∈ before ++ e :: after := List.mem_append_right _ List.mem_cons_self
      rcases List.mem_append.mp hr with hr | hr
      · exact .inl (List.mem_append_left _ hr)
      · rcases List.mem_cons.mp hr with rfl | hr
        · split
          · exact .inr rfl
          · exact .inl he
        · exact .inl (List.mem_append_right _ (List.mem_cons_of_mem _ hr))

/-- A list that names each destination once, by a neighbour through which
nothing leads that it names. -/
theorem applyRouteList_eq (timestamp : Nat) {routes : List Route} (hsound : TableSound table)
    (hroutes : RoutesSound routes)
    (hfresh : ∀ r ∈ table, LeadsThrough neighbor r → r.destinationNode ∉
      routes.map Route.destinationNode) :
    (applyRouteList neighbor timestamp 1 routes table).1
      = ((routes.filter (isOffered neighbor)).map (offeredRoute neighbor timestamp 1)).foldl
          putRoute table := by
  induction routes generalizing table with
  | nil => rfl
  | cons a routes ih =>
      have ha := hroutes.named a List.mem_cons_self
      obtain ⟨honce, hdistinct⟩ := List.nodup_cons.mp hroutes.distinct
      have htail : RoutesSound routes := ⟨RoutesNamed.tail hroutes.named, hdistinct⟩
      have hstep : (applyRoute neighbor timestamp 1 table a).1
          = if isOffered neighbor a then putRoute table (offeredRoute neighbor timestamp 1 a)
            else table := by
        refine applyRoute_eq hsound ha fun hself r hr hdest hhop => ?_
        refine hfresh r hr ⟨hhop, hdest ▸ hself⟩ ?_
        rw [hdest]
        exact List.mem_cons_self
      have hsound' : TableSound (applyRoute neighbor timestamp 1 table a).1 :=
        applyRoute_sound neighbor timestamp 1 hsound ha
      have hrest := ih hsound' htail
        (by
          intro r hr hleads
          rw [hstep] at hr
          have hmem : r ∈ table ∨ r = offeredRoute neighbor timestamp 1 a := by
            split at hr
            · exact mem_putRoute hr
            · exact .inl hr
          rcases hmem with hr | rfl
          · exact fun h => hfresh r hr hleads (List.mem_cons_of_mem _ h)
          · exact honce)
      rw [applyRouteList]
      dsimp only
      rw [hrest, hstep]
      by_cases hoffered : isOffered neighbor a = true
      · simp [hoffered]
      · simp [hoffered]

/-- One neighbour's advertisement, where no route through it is there yet
except the one to itself. -/
theorem applyStored_eq_foldl (timestamp : Nat) (hads : AdsSound ads) (hsound : TableSound table)
    (hfresh : ∀ r ∈ table, ¬ LeadsThrough neighbor r) :
    applyStored ads timestamp table neighbor
      = (offersVia ads timestamp neighbor).foldl putRoute table := by
  cases hlookup : ads.lookup neighbor with
  | none => simp [applyStored, offersVia, hlookup]
  | some stored =>
      obtain ⟨hsender, hroutes⟩ := hads neighbor stored hlookup
      have hkept : (table.filter fun r => !withdrawn neighbor stored.advertisement r) = table := by
        refine List.filter_eq_self.mpr fun r hr => ?_
        have hother : r.nextHop ≠ neighbor ∨ r.destinationNode = neighbor :=
          or_iff_not_imp_left.mpr fun hhop =>
            by_contra fun hself => hfresh r hr ⟨not_not.mp hhop, hself⟩
        rw [withdrawn_other hother]
        rfl
      have hlist := applyRouteList_eq timestamp hsound hroutes
        fun r hr hleads => absurd hleads (hfresh r hr)
      rw [applyStored_eq hlookup hsender, applyRoutes, hkept]
      simp only [offersVia, hlookup]
      exact hlist

theorem mem_offersVia (h : r ∈ offersVia ads timestamp neighbor) :
    r.nextHop = neighbor ∧ ∃ stored a, ads.lookup neighbor = some stored
      ∧ a ∈ stored.advertisement.routes ∧ isOffered neighbor a = true
      ∧ r = offeredRoute neighbor timestamp 1 a := by
  unfold offersVia at h
  cases hlookup : ads.lookup neighbor with
  | none =>
      rw [hlookup] at h
      cases h
  | some stored =>
      rw [hlookup] at h
      obtain ⟨a, ha, rfl⟩ := List.mem_map.mp h
      obtain ⟨ha, hoffered⟩ := List.mem_filter.mp ha
      exact ⟨rfl, stored, a, rfl, ha, hoffered, rfl⟩

theorem offersVia_named (hads : AdsSound ads) : RoutesNamed (offersVia ads timestamp neighbor) := by
  intro r hr
  obtain ⟨-, stored, a, hlookup, ha, -, rfl⟩ := mem_offersVia hr
  exact (hads neighbor stored hlookup).2.named a ha

theorem foldl_putRoute (hnamed : RoutesNamed offers) (hsound : TableSound table) :
    TableSound (offers.foldl putRoute table)
      ∧ ∀ r ∈ offers.foldl putRoute table, r ∈ table ∨ r ∈ offers := by
  induction offers generalizing table with
  | nil => exact ⟨hsound, fun r hr => .inl hr⟩
  | cons o offers ih =>
      have ho := putRoute_sound hsound (hnamed o List.mem_cons_self)
      obtain ⟨hsound', hmem⟩ := ih hnamed.tail ho
      refine ⟨hsound', fun r hr => ?_⟩
      rcases hmem r hr with hr | hr
      · rcases mem_putRoute hr with hr | rfl
        · exact .inl hr
        · exact .inr List.mem_cons_self
      · exact .inr (List.mem_cons_of_mem _ hr)

/-- The neighbours one after the other. -/
theorem foldl_applyStored_eq (hads : AdsSound ads) {neighbors : List NodeId}
    (hnodup : neighbors.Nodup) (hsound : TableSound table)
    (hfresh : ∀ r ∈ table, ∀ n ∈ neighbors, ¬ LeadsThrough n r) :
    neighbors.foldl (applyStored ads timestamp) table
      = (neighbors.flatMap (offersVia ads timestamp)).foldl putRoute table := by
  induction neighbors generalizing table with
  | nil => rfl
  | cons n rest ih =>
      obtain ⟨hn, hrest⟩ := List.nodup_cons.mp hnodup
      have hstep := applyStored_eq_foldl timestamp hads hsound
        fun r hr => hfresh r hr n List.mem_cons_self
      obtain ⟨hsound', hmem⟩ := foldl_putRoute (offersVia_named hads) hsound
      rw [List.foldl_cons, hstep, List.flatMap_cons, List.foldl_append]
      refine ih hrest hsound' fun r hr m hm => ?_
      rcases hmem r hr with hr | hr
      · exact hfresh r hr m (List.mem_cons_of_mem _ hm)
      · rintro ⟨hhop, -⟩
        rw [(mem_offersVia hr).1] at hhop
        exact hn (hhop ▸ hm)

/-- A rebuild puts the offers in their order into an empty table. -/
theorem rebuild_eq_foldl (hnamed : ∀ p ∈ peers, p.id ≠ zero 32) (hads : AdsSound ads) :
    rebuildRoutingTable peers ads timestamp
      = (offersInOrder peers ads timestamp).foldl putRoute [] := by
  have hdirect := directRoutes_eq_foldl timestamp hnamed
  have hholds : HoldsBest ((livePeers peers timestamp).map (directRoute timestamp))
      (directRoutes peers timestamp) := by
    rw [hdirect]
    exact HoldsBest.foldl BestTable.holds_nil _
  have hsound : TableSound (directRoutes peers timestamp) := by
    refine hholds.tableSound fun r hr => ?_
    obtain ⟨p, hp, rfl⟩ := List.mem_map.mp hr
    exact hnamed p (List.mem_of_mem_filter hp)
  rw [rebuildRoutingTable, offersInOrder, List.foldl_append, ← hdirect]
  refine foldl_applyStored_eq hads advertisingNeighbors_nodup hsound fun r hr n _ => ?_
  obtain ⟨p, -, rfl⟩ := List.mem_map.mp (hholds.mem r hr)
  rintro ⟨hhop, hself⟩
  exact hself hhop

theorem rebuild_holdsBest (timestamp : Nat) (hnamed : ∀ p ∈ peers, p.id ≠ zero 32) (hads : AdsSound ads) :
    HoldsBest (offersInOrder peers ads timestamp) (rebuildRoutingTable peers ads timestamp) := by
  rw [rebuild_eq_foldl hnamed hads]
  exact HoldsBest.foldl BestTable.holds_nil _

/-! ## Live next hops -/

/-- A peer that a packet can be given to: connected and alive. -/
def LiveHop (peers : List Peer) (timestamp : Nat) (hop : NodeId) : Prop :=
  ∃ p ∈ peers, p.id = hop ∧ p.state = .connected ∧ peerIsAlive p timestamp peerTimeoutMs

/-- For every destination among those the table has room for, each offer
through a hop that is not alive is beaten by one through a hop that is. -/
def StaleOffersBeaten (peers : List Peer) (ads : RouteAdvertisements) (timestamp : Nat) : Prop :=
  ∀ stale ∈ offersInOrder peers ads timestamp,
    stale.destinationNode ∈ BestTable.firstDistinct maxRouteTableEntries
      ((offersInOrder peers ads timestamp).map Route.destinationNode) →
    ¬ LiveHop peers timestamp stale.nextHop →
    ∃ live ∈ offersInOrder peers ads timestamp,
      live.destinationNode = stale.destinationNode ∧ LiveHop peers timestamp live.nextHop
        ∧ routeOffer live < routeOffer stale

/-- The next hops of a rebuilt table are all alive exactly when no neighbour
that is connected but silent has the best offer for a destination that is
admitted. -/
theorem rebuild_hops_live_iff (peers : List Peer) (ads : RouteAdvertisements) (timestamp : Nat)
    (hnamed : ∀ p ∈ peers, p.id ≠ zero 32) (hads : AdsSound ads) :
    (∀ r ∈ rebuildRoutingTable peers ads timestamp, LiveHop peers timestamp r.nextHop)
      ↔ StaleOffersBeaten peers ads timestamp := by
  have hholds := rebuild_holdsBest timestamp hnamed hads
  constructor
  · intro hlive stale hstale hadmitted hsilent
    obtain ⟨r, hr, hdest⟩ := hholds.exists_of_mem hadmitted
    refine ⟨r, hholds.mem r hr, hdest, hlive r hr, lt_of_le_of_ne ?_ ?_⟩
    · exact hholds.least r hr stale hstale hdest.symm
    · intro heq
      have hhop : r.nextHop = stale.nextHop := (offer_inj.mp heq).2
      exact hsilent (hhop ▸ hlive r hr)
  · intro hbeaten r hr
    by_contra hsilent
    have hadmitted := List.mem_map_of_mem (f := Route.destinationNode) hr
    rw [hholds.keys] at hadmitted
    obtain ⟨live, hmem, hdest, -, hlt⟩ := hbeaten r (hholds.mem r hr) hadmitted hsilent
    exact absurd (hholds.least r hr live hmem hdest) (not_le.mpr hlt)

end

theorem rebuild_hops_live_iff_line :
    (∀ r ∈ rebuildRoutingTable [livePeer 1] (adsOf [adOf 1 [(2, 1)]]) 1000,
        LiveHop [livePeer 1] 1000 r.nextHop)
      ↔ StaleOffersBeaten [livePeer 1] (adsOf [adOf 1 [(2, 1)]]) 1000 := by
  have hads : AdsValid overlayNetwork (adsOf [adOf 1 [(2, 1)]]) := forall_lookup (by decide)
  have hdistinct : AdsDistinct (adsOf [adOf 1 [(2, 1)]]) := forall_lookup (by decide)
  exact rebuild_hops_live_iff [livePeer 1] _ 1000 (by decide) (hads.adsSound hdistinct)

/-- A neighbour that is connected but was last heard from long ago. -/
def silentPeer (n : UInt8) : Peer := { livePeer n with lastSeen := 1 }

/-- Node 1 has been silent for more than five seconds, and still takes node 3
from node 2, which is alive and reaches it as well. -/
theorem rebuild_hop_silent :
    ¬ ∀ (peers : List Peer) (ads : RouteAdvertisements) (timestamp : Nat),
      PeersSound peers → AdsSound ads →
      ∀ r ∈ rebuildRoutingTable peers ads timestamp, LiveHop peers timestamp r.nextHop := by
  intro h
  let peers := [silentPeer 1, livePeer 2]
  let ads := adsOf [adOf 1 [(3, 1)], adOf 2 [(3, 5)]]
  have hads : AdsValid overlayNetwork ads := forall_lookup (by decide)
  have hdistinct : AdsDistinct ads := forall_lookup (by decide)
  have hpeers : PeersSound peers := ⟨by decide, by decide⟩
  have hroute : ∃ r ∈ rebuildRoutingTable peers ads 6000, r.nextHop = nodeOf 1 := by
    decide
  have hsilent : ∀ p ∈ peers, p.id = nodeOf 1 → ¬ peerIsAlive p 6000 peerTimeoutMs := by
    decide
  obtain ⟨r, hr, hhop⟩ := hroute
  obtain ⟨p, hp, hid, -, halive⟩ := h peers ads 6000 hpeers (hads.adsSound hdistinct) r hr
  exact hsilent p hp (hid.trans hhop) halive

end Madoka

import Madoka.Daemon.Rebuild

/-!
# Route Choice

What a rebuilt table holds: for each destination the best candidate, whatever
the order of the inputs, and for a live neighbour the direct route unless
another neighbour claims to be that neighbour.
-/

namespace Madoka

open Octets DistanceVector

variable {peers : List Peer} {ads : RouteAdvertisements} {timestamp : Nat}

/-! ## The best candidate -/

theorem Candidate.finite {r : Route} (h : Candidate peers ads timestamp r) :
    r.metric < routeMetricInfinity := by
  cases h with
  | direct _ _ => exact (by decide : 1 < 16)
  | advertised _ _ _ _ hfinite => exact hfinite

/-- The next hop tells a candidate from the others for its destination. -/
theorem Candidate.eq_of_nextHop (hpeers : PeersSound peers) (hads : AdsSound ads) {r r' : Route}
    (hr : Candidate peers ads timestamp r) (hr' : Candidate peers ads timestamp r')
    (hdest : r.destinationNode = r'.destinationNode) (hhop : r.nextHop = r'.nextHop) :
    r = r' := by
  cases hr with
  | @direct p hp halive =>
      cases hr' with
      | @direct q hq halive' =>
          rw [List.inj_on_of_nodup_map hpeers.distinct hp hq hdest]
      | @advertised n stored a hconnected hstored ha hother hfinite =>
          exact absurd (hdest.symm.trans hhop) hother
  | @advertised n stored a hconnected hstored ha hother hfinite =>
      cases hr' with
      | @direct q hq halive' => exact absurd (hdest.trans hhop.symm) hother
      | @advertised n' stored' a' hconnected' hstored' ha' hother' hfinite' =>
          have hn : n = n' := hhop
          subst hn
          rw [hstored, Option.some.injEq] at hstored'
          subst hstored'
          rw [List.inj_on_of_nodup_map (hads n stored hstored).2.distinct ha ha' hdest]

theorem mem_rebuildRoutingTable (hpeers : PeersSound peers) (hads : AdsSound ads)
    (hfits : Fits peers ads timestamp) {r : Route} :
    r ∈ rebuildRoutingTable peers ads timestamp ↔ Candidate peers ads timestamp r
      ∧ ∀ c, Candidate peers ads timestamp c → c.destinationNode = r.destinationNode →
        routeOffer r ≤ routeOffer c := by
  obtain ⟨hsound, hfind⟩ := rebuild_find hpeers hads.adsNamed hfits r.destinationNode
  have hchosen := rebuildRoute_chosen timestamp hpeers hads r.destinationNode
  rw [← hfind] at hchosen
  constructor
  · intro hr
    have hentry := routingFindRoute_of_mem hsound.distinct hr
    refine ⟨(hchosen.mem r hentry).1, fun c hc hdest => ?_⟩
    have hle := hchosen.best.le _ ⟨c, ⟨hc, hdest⟩, rfl⟩
    rw [hentry] at hle
    exact WithTop.coe_le_coe.mp hle
  · rintro ⟨hcandidate, hleast⟩
    have hle := hchosen.best.le _ ⟨r, ⟨hcandidate, rfl⟩, rfl⟩
    cases hentry : routingFindRoute (rebuildRoutingTable peers ads timestamp) r.destinationNode with
    | none =>
        rw [hentry] at hle
        exact absurd (top_le_iff.mp hle) WithTop.coe_ne_top
    | some s =>
        obtain ⟨hs, hsdest⟩ := routingFindRoute_some hentry
        obtain ⟨hscandidate, -⟩ := hchosen.mem s hentry
        rw [hentry] at hle
        have heq : routeOffer s = routeOffer r :=
          le_antisymm (WithTop.coe_le_coe.mp hle) (hleast s hscandidate hsdest)
        have hhop := (offer_inj.mp heq).2
        rwa [← hscandidate.eq_of_nextHop hpeers hads hcandidate hsdest hhop]

theorem exists_mem_rebuildRoutingTable (hpeers : PeersSound peers) (hads : AdsSound ads)
    (hfits : Fits peers ads timestamp) (dest : NodeId) :
    (∃ r ∈ rebuildRoutingTable peers ads timestamp, r.destinationNode = dest)
      ↔ ∃ c, Candidate peers ads timestamp c ∧ c.destinationNode = dest := by
  constructor
  · rintro ⟨r, hr, hdest⟩
    exact ⟨r, ((mem_rebuildRoutingTable hpeers hads hfits).mp hr).1, hdest⟩
  · rintro ⟨c, hc, rfl⟩
    have hfind := (rebuild_find hpeers hads.adsNamed hfits c.destinationNode).2
    have hchosen := rebuildRoute_chosen timestamp hpeers hads c.destinationNode
    have hle := hchosen.best.le _ ⟨c, ⟨hc, rfl⟩, rfl⟩
    rw [← hfind] at hle
    cases hentry : routingFindRoute (rebuildRoutingTable peers ads timestamp) c.destinationNode with
    | none =>
        rw [hentry] at hle
        exact absurd (top_le_iff.mp hle) WithTop.coe_ne_top
    | some s => exact ⟨s, routingFindRoute_some hentry⟩

/-! ## The order of the inputs -/

/-- The same advertisements, their routes in any order. -/
def SameAdvertisements (ads ads' : RouteAdvertisements) : Prop :=
  ∀ n, Option.Rel (fun stored stored' =>
      stored.advertisement.sender = stored'.advertisement.sender
        ∧ stored.advertisement.routes.Perm stored'.advertisement.routes)
    (ads.lookup n) (ads'.lookup n)

theorem SameAdvertisements.symm {ads' : RouteAdvertisements} (h : SameAdvertisements ads ads') :
    SameAdvertisements ads' ads := by
  intro n
  have hrel := h n
  generalize ads.lookup n = left at hrel ⊢
  generalize ads'.lookup n = right at hrel ⊢
  cases hrel with
  | some hstored => exact .some ⟨hstored.1.symm, hstored.2.symm⟩
  | none => exact .none

theorem isConnected_iff {id : NodeId} :
    isConnected peers id ↔ ∃ p ∈ peers, p.id = id ∧ p.state = .connected := by
  simp [isConnected]

theorem Candidate.perm {peers' : List Peer} {ads' : RouteAdvertisements} (hpeers : peers.Perm peers')
    (hads : SameAdvertisements ads ads') {r : Route} (hr : Candidate peers ads timestamp r) :
    Candidate peers' ads' timestamp r := by
  cases hr with
  | direct hp halive => exact .direct (hpeers.mem_iff.mp hp) halive
  | @advertised n stored a hconnected hstored ha hother hfinite =>
      obtain ⟨p, hp, hstate⟩ := isConnected_iff.mp hconnected
      have hconnected' := isConnected_iff.mpr ⟨p, hpeers.mem_iff.mp hp, hstate⟩
      have hrel := hads n
      rw [hstored] at hrel
      cases hlookup : ads'.lookup n with
      | none =>
          rw [hlookup] at hrel
          cases hrel
      | some stored' =>
          rw [hlookup] at hrel
          cases hrel with
          | some hsame =>
              exact .advertised hconnected' hlookup (hsame.2.mem_iff.mp ha) hother hfinite

theorem AdsSound.same {ads' : RouteAdvertisements} (h : AdsSound ads)
    (hsame : SameAdvertisements ads ads') : AdsSound ads' := by
  intro n stored' hlookup
  have hrel := hsame n
  rw [hlookup] at hrel
  cases hstored : ads.lookup n with
  | none =>
      rw [hstored] at hrel
      cases hrel
  | some stored =>
      rw [hstored] at hrel
      cases hrel with
      | some hroutes =>
          obtain ⟨hsender, hsound⟩ := h n stored hstored
          refine ⟨hroutes.1.symm.trans hsender, fun a ha => ?_, ?_⟩
          · exact hsound.named a (hroutes.2.mem_iff.mpr ha)
          · exact (hroutes.2.map _).nodup_iff.mp hsound.distinct

/-- Each destination that has a candidate gets exactly one route, the least by
metric and next hop; neither the order of the peers and of the stored
advertisements nor that of the routes in them matters. -/
theorem rebuild_best (hpeers : PeersSound peers) (hads : AdsSound ads)
    (hfits : Fits peers ads timestamp) :
    ((rebuildRoutingTable peers ads timestamp).map Route.destinationNode).Nodup
      ∧ (∀ dest, (∃ r ∈ rebuildRoutingTable peers ads timestamp, r.destinationNode = dest)
          ↔ ∃ c, Candidate peers ads timestamp c ∧ c.destinationNode = dest)
      ∧ (∀ r, r ∈ rebuildRoutingTable peers ads timestamp ↔ Candidate peers ads timestamp r
          ∧ ∀ c, Candidate peers ads timestamp c → c.destinationNode = r.destinationNode →
            routeOffer r ≤ routeOffer c)
      ∧ ∀ peers' ads', peers.Perm peers' → SameAdvertisements ads ads' →
          (rebuildRoutingTable peers' ads' timestamp).Perm
            (rebuildRoutingTable peers ads timestamp) := by
  refine ⟨(rebuild_find hpeers hads.adsNamed hfits (zero 32)).1.distinct,
    exists_mem_rebuildRoutingTable hpeers hads hfits,
    fun r => mem_rebuildRoutingTable hpeers hads hfits, ?_⟩
  intro peers' ads' hperm hsame
  have hcandidate : ∀ r, Candidate peers' ads' timestamp r ↔ Candidate peers ads timestamp r :=
    fun r => ⟨Candidate.perm hperm.symm hsame.symm, Candidate.perm hperm hsame⟩
  have hpeers' : PeersSound peers' :=
    ⟨fun p hp => hpeers.named p (hperm.mem_iff.mpr hp),
      (hperm.map _).nodup_iff.mp hpeers.distinct⟩
  have hads' := hads.same hsame
  have hfits' : Fits peers' ads' timestamp := by
    obtain ⟨destinations, hcard, hcovers⟩ := hfits
    exact ⟨destinations, hcard, fun r hr => hcovers r ((hcandidate r).mp hr)⟩
  have hnodup := (rebuild_find hpeers hads.adsNamed hfits (zero 32)).1.distinct.of_map _
  have hnodup' := (rebuild_find hpeers' hads'.adsNamed hfits' (zero 32)).1.distinct.of_map _
  rw [List.perm_ext_iff_of_nodup hnodup' hnodup]
  intro r
  rw [mem_rebuildRoutingTable hpeers' hads' hfits', mem_rebuildRoutingTable hpeers hads hfits]
  simp only [hcandidate]

/-- A node whose identifier repeats one byte. -/
def nodeOf (n : UInt8) : NodeId := repeated 32 n

def overlayNetwork : IPv6 := leading 0xfd 15

/-- A neighbour heard from at time 1000. -/
def livePeer (n : UInt8) : Peer where
  id := nodeOf n
  virtualAddress := virtualAddress overlayNetwork (nodeOf n)
  endpoint := []
  state := .connected
  lastSeen := 1000

/-- An advertisement of routes to nodes, each with its metric. -/
def adOf (sender : UInt8) (routes : List (UInt8 × Nat)) : RouteAdvertisement where
  sender := nodeOf sender
  generation := 1
  sequenceNumber := 1
  routes := routes.map fun route =>
    routeCreate (virtualAddress overlayNetwork (nodeOf route.1)) (nodeOf sender) route.2 0
      (nodeOf route.1)

def storedAd (advertisement : RouteAdvertisement) : StoredRouteAdvertisement where
  advertisement := advertisement
  receivedAtMs := 1000

def adsOf (advertisements : List RouteAdvertisement) : RouteAdvertisements :=
  advertisements.foldl (fun ads ad => ads.insert ad.sender (storedAd ad)) ∅

/-- What holds of the entries holds of what is looked up. -/
theorem forall_lookup {motive : NodeId → StoredRouteAdvertisement → Prop}
    (h : ∀ entry ∈ ads.entries, motive entry.1 entry.2) :
    ∀ n stored, ads.lookup n = some stored → motive n stored :=
  fun n stored hlookup => h ⟨n, stored⟩ (AList.mem_lookup_iff.mp hlookup)

theorem rebuild_best_line :
    ((rebuildRoutingTable [livePeer 1] (adsOf [adOf 1 [(2, 1)]]) 1000).map Route.destinationNode).Nodup
      ∧ ∀ dest, (∃ r ∈ rebuildRoutingTable [livePeer 1] (adsOf [adOf 1 [(2, 1)]]) 1000,
            r.destinationNode = dest)
          ↔ ∃ c, Candidate [livePeer 1] (adsOf [adOf 1 [(2, 1)]]) 1000 c ∧ c.destinationNode = dest := by
  have hpeers : PeersSound [livePeer 1] := ⟨by decide, by decide⟩
  have hvalid : AdsValid overlayNetwork (adsOf [adOf 1 [(2, 1)]]) :=
    forall_lookup (by decide)
  have hdistinct : AdsDistinct (adsOf [adOf 1 [(2, 1)]]) := forall_lookup (by decide)
  have hfits : Fits [livePeer 1] (adsOf [adOf 1 [(2, 1)]]) 1000 :=
    ⟨_, by decide, covers_allDestinations⟩
  have h := rebuild_best hpeers (hvalid.adsSound hdistinct) hfits
  exact ⟨h.1, h.2.1⟩

/-! ## Direct neighbours -/

section
variable {neighbor : NodeId} {currentTime linkCost : Nat} {advertised : Route}

theorem replaceRoute_nextHop {candidate existing : Route} :
    (replaceRoute neighbor currentTime candidate existing).1.nextHop = existing.nextHop
      ∨ (replaceRoute neighbor currentTime candidate existing).1.nextHop = candidate.nextHop := by
  unfold replaceRoute
  dsimp only
  split_ifs <;> simp

/-- A route leads where it led, or to the neighbour. -/
theorem meetExisting_nextHop (existing : Route) :
    (meetExisting neighbor currentTime linkCost advertised existing).1.nextHop = existing.nextHop
      ∨ (meetExisting neighbor currentTime linkCost advertised existing).1.nextHop
        = neighbor := by
  unfold meetExisting
  split_ifs
  · exact replaceRoute_nextHop
  · unfold poisonRoute
    split_ifs <;> simp

theorem foldl_meetRoute_nextHop (neighbor : NodeId) (currentTime linkCost : Nat)
    (routes : List Route) (existing : Route) :
    ∃ r, routes.foldl (fun e a => (meetRoute neighbor currentTime linkCost a e).1) (some existing)
        = some r ∧ (r.nextHop = existing.nextHop ∨ r.nextHop = neighbor) := by
  induction routes generalizing existing with
  | nil => exact ⟨existing, rfl, .inl rfl⟩
  | cons a rest ih =>
      obtain ⟨r, hr, hhop⟩ :=
        ih (meetExisting neighbor currentTime linkCost a existing).1
      refine ⟨r, hr, ?_⟩
      rcases hhop with hhop | hhop
      · rw [hhop]
        exact meetExisting_nextHop existing
      · exact .inr hhop

/-- Only a smaller neighbour that claims the metric zero takes over from a
direct route. -/
theorem meetRoute_direct {p : Peer} (timestamp : Nat) (hother : p.id ≠ neighbor)
    (advertised : Route) :
    (neighbor < p.id ∧ advertised.metric = 0
        ∧ ∃ r, (meetRoute neighbor timestamp 1 advertised (some (directRoute timestamp p))).1
            = some r ∧ r.nextHop = neighbor)
      ∨ ¬ (neighbor < p.id ∧ advertised.metric = 0)
        ∧ (meetRoute neighbor timestamp 1 advertised (some (directRoute timestamp p))).1
            = some (directRoute timestamp p) := by
  by_cases hclaim : neighbor < p.id ∧ advertised.metric = 0
  · left
    refine ⟨hclaim.1, hclaim.2, _, rfl, ?_⟩
    simp [meetExisting, hclaim.1, hclaim.2, routeMetricInfinity, replaceRoute, offeredRoute,
      routeCreate, directRoute, hother]
  · right
    refine ⟨hclaim, ?_⟩
    have hnot : ¬ (advertised.metric = 0 ∧ neighbor < p.id) := fun h => hclaim h.symm
    by_cases hfinite : 1 + advertised.metric < routeMetricInfinity
    · simp [meetRoute, meetExisting, hfinite, replaceRoute, offeredRoute, routeCreate, directRoute,
        hother, hnot]
    · simp [meetRoute, meetExisting, hfinite, poisonRoute, directRoute, routeCreate, hother]

theorem foldl_meetRoute_direct {p : Peer} (timestamp : Nat) (hother : p.id ≠ neighbor)
    (routes : List Route) :
    ((∃ a ∈ routes, neighbor < p.id ∧ a.metric = 0)
        ∧ ∃ r, routes.foldl (fun e a => (meetRoute neighbor timestamp 1 a e).1)
            (some (directRoute timestamp p)) = some r ∧ r.nextHop = neighbor)
      ∨ (∀ a ∈ routes, ¬ (neighbor < p.id ∧ a.metric = 0))
        ∧ routes.foldl (fun e a => (meetRoute neighbor timestamp 1 a e).1)
            (some (directRoute timestamp p)) = some (directRoute timestamp p) := by
  induction routes with
  | nil => exact .inr ⟨fun a ha => absurd ha List.not_mem_nil, rfl⟩
  | cons a rest ih =>
      rw [List.foldl_cons]
      rcases meetRoute_direct timestamp hother a with
        ⟨hless, hzero, s, hs, hshop⟩ | ⟨hnot, hs⟩
      · obtain ⟨r, hr, hhop⟩ := foldl_meetRoute_nextHop neighbor timestamp 1 rest s
        rw [hs]
        refine .inl ⟨⟨a, List.mem_cons_self, hless, hzero⟩, r, hr, ?_⟩
        exact hhop.elim (fun h => h.trans hshop) id
      · rw [hs]
        rcases ih with ⟨⟨b, hb, hclaim⟩, hr⟩ | ⟨hnone, hr⟩
        · exact .inl ⟨⟨b, List.mem_cons_of_mem _ hb, hclaim⟩, hr⟩
        · refine .inr ⟨?_, hr⟩
          intro b hb
          rcases List.mem_cons.mp hb with rfl | hb
          · exact hnot
          · exact hnone b hb

end

/-- Another neighbour takes over the route to a peer: it advertises that peer
with the metric zero and comes first by its identifier. -/
def Displaces (ads : RouteAdvertisements) (dest neighbor : NodeId) : Prop :=
  neighbor < dest ∧ ∃ stored a, ads.lookup neighbor = some stored
    ∧ a ∈ stored.advertisement.routes ∧ a.destinationNode = dest ∧ a.metric = 0

/-- The direct route, or the route of one that displaced it. -/
inductive DirectOr (ads : RouteAdvertisements) (timestamp : Nat) (p : Peer)
    (passed : List NodeId) : Option Route → Prop where
  | direct (hnone : ∀ n ∈ passed, ¬ Displaces ads p.id n) :
      DirectOr ads timestamp p passed (some (directRoute timestamp p))
  | displaced {n : NodeId} {r : Route} (hn : n ∈ passed) (hdisplaces : Displaces ads p.id n)
      (hhop : r.nextHop ∈ passed) (hother : r.nextHop ≠ p.id) :
      DirectOr ads timestamp p passed (some r)

/-- A route that does not lead to the neighbour is not withdrawn by it. -/
theorem DirectOr.kept {p : Peer} {passed : List NodeId} {existing : Option Route}
    (h : DirectOr ads timestamp p passed existing) {n : NodeId} (hn : n ∉ passed)
    (advertisement : RouteAdvertisement) :
    existing.filter (fun r => !withdrawn n advertisement r) = existing
      ∧ existing.isSome := by
  cases h with
  | direct hnone =>
      have hr : (directRoute timestamp p).nextHop ≠ n
          ∨ (directRoute timestamp p).destinationNode = n := by
        by_cases hself : p.id = n
        · exact .inr hself
        · exact .inl hself
      simp [withdrawn_other hr]
  | @displaced m r hm hdisplaces hhop hother =>
      have hr : r.nextHop ≠ n := fun heq => hn (heq ▸ hhop)
      simp [withdrawn_other (.inl hr)]

theorem mergeStored_directOr {p : Peer} {passed : List NodeId} {existing : Option Route}
    (h : DirectOr ads timestamp p passed existing) {n : NodeId} (hn : n ∉ passed) :
    DirectOr ads timestamp p (passed ++ [n]) (mergeStored ads timestamp p.id existing n) := by
  have hmono : (¬ Displaces ads p.id n ∨ ∃ m ∈ passed, Displaces ads p.id m) →
      DirectOr ads timestamp p (passed ++ [n]) existing := by
    intro hnone
    cases h with
    | direct hpassed =>
        refine .direct fun m hm => ?_
        rcases List.mem_append.mp hm with hm | hm
        · exact hpassed m hm
        · rw [List.mem_singleton.mp hm]
          exact hnone.resolve_right fun ⟨k, hk, hdisplaces⟩ => hpassed k hk hdisplaces
    | displaced hm hdisplaces hhop hother =>
        exact .displaced (List.mem_append_left _ hm) hdisplaces (List.mem_append_left _ hhop) hother
  unfold mergeStored
  cases hlookup : ads.lookup n with
  | none =>
      refine hmono (.inl ?_)
      rintro ⟨-, stored, a, hstored, -⟩
      rw [hlookup] at hstored
      cases hstored
  | some stored =>
      dsimp only
      rw [mergeRoute, (h.kept hn stored.advertisement).1, meetRoutes]
      by_cases hself : p.id = n
      · rw [if_pos hself]
        refine hmono (.inl ?_)
        rintro ⟨hless, -⟩
        exact absurd hself hless.ne'
      · rw [if_neg hself]
        cases h with
        | direct hpassed =>
            rcases foldl_meetRoute_direct timestamp hself
              (stored.advertisement.routes.filter fun a => a.destinationNode = p.id) with
              ⟨⟨a, ha, hless, hzero⟩, r, hr, hhop⟩ | ⟨hnone, hr⟩
            · rw [hr]
              rw [List.mem_filter, decide_eq_true_eq] at ha
              have hnew : n ∈ passed ++ [n] := List.mem_append_right _ (List.mem_singleton.mpr rfl)
              exact .displaced hnew ⟨hless, stored, a, hlookup, ha.1, ha.2, hzero⟩
                (hhop ▸ hnew) (hhop ▸ Ne.symm hself)
            · rw [hr]
              refine hmono (.inl ?_)
              rintro ⟨hless, stored', a, hstored', ha, had, hzero⟩
              rw [hlookup, Option.some.injEq] at hstored'
              subst hstored'
              refine hnone a ?_ ⟨hless, hzero⟩
              rw [List.mem_filter, decide_eq_true_eq]
              exact ⟨ha, had⟩
        | @displaced m r hm hdisplaces hhop hother =>
            obtain ⟨s, hs, hshop⟩ := foldl_meetRoute_nextHop n timestamp 1
              (stored.advertisement.routes.filter fun a => a.destinationNode = p.id) r
            rw [hs]
            refine .displaced (List.mem_append_left _ hm) hdisplaces ?_ ?_
            · rcases hshop with hshop | hshop
              · exact List.mem_append_left _ (hshop ▸ hhop)
              · exact List.mem_append_right _ (List.mem_singleton.mpr hshop)
            · rcases hshop with hshop | hshop
              · exact hshop ▸ hother
              · exact hshop ▸ Ne.symm hself

theorem foldl_mergeStored_directOr {p : Peer} (neighbors : List NodeId)
    (hnodup : neighbors.Nodup) :
    DirectOr ads timestamp p neighbors
      (neighbors.foldl (mergeStored ads timestamp p.id) (some (directRoute timestamp p))) := by
  induction neighbors using List.reverseRecOn with
  | nil => exact .direct fun n hn => absurd hn List.not_mem_nil
  | append_singleton passed n ih =>
      have hn : n ∉ passed := by
        rw [List.nodup_append] at hnodup
        exact fun hmem => hnodup.2.2 n hmem n (List.mem_singleton.mpr rfl) rfl
      rw [List.foldl_append]
      exact mergeStored_directOr (ih (hnodup.sublist (List.sublist_append_left _ _))) hn

/-- A destination is reached over the direct link and in no other way. -/
def ReachedDirectly (table : RouteTable) (id : NodeId) : Prop :=
  (∃ r ∈ table, r.destinationNode = id ∧ r.nextHop = id ∧ r.metric = 1)
    ∧ ∀ r ∈ table, r.destinationNode = id → r.nextHop = id

/-- What the rebuilt table has for a live neighbour. -/
theorem rebuild_directOr (hpeers : PeersSound peers) (hlength : peers.length ≤ maxTopologyPeers)
    (hads : AdsNamed ads) {p : Peer} (hp : p ∈ peers)
    (halive : peerIsAlive p timestamp peerTimeoutMs) :
    TableSound (rebuildRoutingTable peers ads timestamp)
      ∧ DirectOr ads timestamp p (advertisingNeighbors peers ads)
        (routingFindRoute (rebuildRoutingTable peers ads timestamp) p.id) := by
  have hroom : (livePeers peers timestamp).length ≤ maxRouteTableEntries :=
    (List.length_filter_le _ _).trans hlength
  have hdirect := directFor_of_mem hpeers hp halive
  -- the destinations may be more than fit, but the peer has its route from the start
  have hpassed : ∀ passed : List NodeId, passed.Nodup → DirectOr ads timestamp p passed
      (passed.foldl (mergeStored ads timestamp p.id) (directFor peers timestamp p.id)) := by
    intro passed hnodup
    rw [hdirect]
    exact foldl_mergeStored_directOr passed hnodup
  obtain ⟨hsound, -, hfind⟩ := rebuild_find_of hpeers hads hroom
    covers_allDestinations p.id (.inr (by
    intro passed n rest stored hsplit _
    have hnodup : (passed ++ n :: rest).Nodup := hsplit ▸ advertisingNeighbors_nodup
    rw [List.nodup_append] at hnodup
    have hn : n ∉ passed := fun hmem => hnodup.2.2 n hmem n List.mem_cons_self rfl
    obtain ⟨hkept, hsome⟩ := (hpassed passed hnodup.1).kept hn stored.advertisement
    rw [hkept]
    exact hsome))
  have hfinal := hpassed (advertisingNeighbors peers ads) advertisingNeighbors_nodup
  rw [← rebuildRoute, ← hfind] at hfinal
  exact ⟨hsound, hfinal⟩

/-- A live neighbour is reached directly unless a connected one displaces it. -/
theorem rebuild_reachedDirectly_iff {network : IPv6} (hpeers : PeersSound peers)
    (hlength : peers.length ≤ maxTopologyPeers) (hads : AdsValid network ads) {p : Peer}
    (hp : p ∈ peers) (halive : peerIsAlive p timestamp peerTimeoutMs) :
    ReachedDirectly (rebuildRoutingTable peers ads timestamp) p.id
      ↔ ∀ n, isConnected peers n → ¬ Displaces ads p.id n := by
  obtain ⟨hsound, hfinal⟩ := rebuild_directOr hpeers hlength hads.adsNamed hp halive
  generalize hentry : routingFindRoute (rebuildRoutingTable peers ads timestamp) p.id = entry
    at hfinal
  cases hfinal with
  | direct hnone =>
      refine iff_of_true ⟨?_, ?_⟩ ?_
      · exact ⟨_, (routingFindRoute_some hentry).1, rfl, rfl, rfl⟩
      · intro r hr hdest
        have hfound := routingFindRoute_of_mem hsound.distinct hr
        rw [hdest, hentry, Option.some.injEq] at hfound
        rw [← hfound]
        rfl
      · rintro n hconnected hdisplaces
        obtain ⟨stored, a, hlookup, -⟩ := hdisplaces.2
        have hn : n ∈ ads := AList.lookup_isSome.mp (by rw [hlookup]; rfl)
        exact hnone n (mem_advertisingNeighbors.mpr ⟨hn, hconnected⟩) hdisplaces
  | @displaced n r hn hdisplaces hhop hother =>
      refine iff_of_false ?_ fun hnone =>
        hnone n (mem_advertisingNeighbors.mp hn).2 hdisplaces
      rintro ⟨-, hall⟩
      obtain ⟨hr, hdest⟩ := routingFindRoute_some hentry
      exact hother (hall r hr hdest)

/-- A neighbour that advertises a true distance displaces nobody. -/
theorem rebuild_reachedDirectly_line :
    ReachedDirectly
      (rebuildRoutingTable [livePeer 1, livePeer 2] (adsOf [adOf 1 [(2, 1)]]) 1000) (nodeOf 2) := by
  have hpeers : PeersSound [livePeer 1, livePeer 2] := ⟨by decide, by decide⟩
  have hvalid : AdsValid overlayNetwork (adsOf [adOf 1 [(2, 1)]]) :=
    forall_lookup (by decide)
  have hp : livePeer 2 ∈ [livePeer 1, livePeer 2] := by simp
  refine (rebuild_reachedDirectly_iff hpeers (by decide) hvalid hp (by decide)).mpr ?_
  rintro n - ⟨-, stored, a, hlookup, ha, -, hzero⟩
  have hpositive : ∀ n stored, (adsOf [adOf 1 [(2, 1)]]).lookup n = some stored →
      ∀ a ∈ stored.advertisement.routes, a.metric ≠ 0 := forall_lookup (by decide)
  exact hpositive n stored hlookup a ha hzero

/-- Node 1 claims to be node 2, and its smaller identifier decides. -/
theorem rebuild_displaced :
    ¬ ∀ (network : IPv6) (peers : List Peer) (ads : RouteAdvertisements) (timestamp : Nat),
      PeersSound peers → peers.length ≤ maxTopologyPeers → AdsValid network ads →
      ∀ p ∈ peers, peerIsAlive p timestamp peerTimeoutMs →
        ReachedDirectly (rebuildRoutingTable peers ads timestamp) p.id := by
  intro h
  have hpeers : PeersSound [livePeer 1, livePeer 2] := ⟨by decide, by decide⟩
  have hvalid : AdsValid overlayNetwork (adsOf [adOf 1 [(2, 0)]]) :=
    forall_lookup (by decide)
  have hp : livePeer 2 ∈ [livePeer 1, livePeer 2] := by simp
  obtain ⟨⟨r, hr, hdest, hhop, -⟩, -⟩ :=
    h overlayNetwork _ _ 1000 hpeers (by decide) hvalid _ hp (by decide)
  have hnone : ∀ r ∈ rebuildRoutingTable [livePeer 1, livePeer 2] (adsOf [adOf 1 [(2, 0)]]) 1000,
      r.nextHop ≠ nodeOf 2 := by decide
  exact hnone r hr hhop

end Madoka

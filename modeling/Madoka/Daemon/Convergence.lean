import Madoka.Daemon.FastPath

/-!
# Convergence

A network of nodes with static live links that rebuild their tables and
advertise them to each other in rounds. Whatever advertisements the nodes
start with, after 16 rounds every table holds the shortest paths.
-/

namespace Madoka

open Octets DistanceVector

/-- At most 16 named nodes and the links between them. -/
structure Network where
  nodes : List NodeId
  linked : NodeId → NodeId → Bool
  nodup : nodes.Nodup
  short : nodes.length ≤ maxRouteTableEntries
  named : ∀ u ∈ nodes, u ≠ zero 32
  symm : ∀ u v, linked u v → linked v u
  irrefl : ∀ u, linked u u = false
  inside : ∀ u v, linked u v → u ∈ nodes

namespace Network

variable (net : Network)

def graph : SimpleGraph NodeId where
  Adj u v := net.linked u v = true
  symm := ⟨net.symm⟩
  loopless := ⟨fun u h => by simp [net.irrefl u] at h⟩

def neighbors (u : NodeId) : List NodeId :=
  net.nodes.filter (net.linked u)

theorem mem_neighbors {u v : NodeId} : v ∈ net.neighbors u ↔ net.graph.Adj u v := by
  rw [neighbors, List.mem_filter]
  constructor
  · exact fun h => h.2
  · exact fun h => ⟨net.inside v u (net.symm u v h), h⟩

theorem dist_lt {u v : NodeId} (hu : u ∈ net.nodes) (hreach : net.graph.Reachable u v) :
    net.graph.dist u v < routeMetricInfinity := by
  have hinside : ∀ a b, net.graph.Adj a b → a ∈ net.nodes.toFinset :=
    fun a b hab => List.mem_toFinset.mpr (net.inside a b hab)
  have hlt := dist_lt_card hinside (List.mem_toFinset.mpr hu) hreach
  rw [List.toFinset_card_of_nodup net.nodup] at hlt
  exact lt_of_lt_of_le hlt net.short

end Network

/-- What the nodes see and say, round by round. -/
structure RoundInputs where
  prefixAddress : IPv6
  peers : Nat → NodeId → List Peer
  time : Nat → NodeId → Nat
  sequence : Nat → NodeId → NodeId → UInt64
  generation : Nat → NodeId → UInt64
  initial : NodeId → RouteAdvertisements

section
variable (net : Network) (x : RoundInputs)

/-- An advertisement that the validator accepts is stored. -/
def deliver (ads : RouteAdvertisements) (sender : NodeId) (advertisement : RouteAdvertisement)
    (now : Nat) : RouteAdvertisements :=
  match validateRouteAdvertisement advertisement x.prefixAddress with
  | .ok () => ads.insert sender { advertisement := advertisement, receivedAtMs := now }
  | .error _ => ads

/-- What `v` tells its neighbour `u`. -/
def toldTo (round : Nat) (u v : NodeId) (table : RouteTable) : RouteAdvertisement :=
  routeCreateAdvertisement v table (x.sequence round v u) (some u) .poisonReverse
    (x.generation round v)

/-- The stored advertisements before each round. In a round each node rebuilds
its table and tells it to each of its neighbours. -/
def roundAds : Nat → NodeId → RouteAdvertisements
  | 0, u => x.initial u
  | round + 1, u =>
      (net.neighbors u).foldl (fun ads v =>
          deliver x ads v
            (toldTo x round u v
              (rebuildRoutingTable (x.peers round v) (roundAds round v) (x.time round v)))
            (x.time round u))
        (roundAds round u)

def roundTable (round : Nat) (u : NodeId) : RouteTable :=
  rebuildRoutingTable (x.peers round u) (roundAds net x round u) (x.time round u)

/-- The links are those of the network, up and live in every round. -/
structure StaticLinks : Prop where
  valid : ∀ round, ∀ u ∈ net.nodes, PeersValid x.prefixAddress (x.peers round u)
  live : ∀ round, ∀ u ∈ net.nodes, ∀ id,
    (∃ p ∈ x.peers round u, p.id = id ∧ peerIsAlive p (x.time round u) peerTimeoutMs)
      ↔ net.graph.Adj u id
  connected : ∀ round, ∀ u ∈ net.nodes, ∀ id,
    isConnected (x.peers round u) id ↔ net.graph.Adj u id

/-- Advertisements that name nodes of the network only. -/
def AdsInside (ads : RouteAdvertisements) : Prop :=
  ∀ n stored, ads.lookup n = some stored →
    ∀ a ∈ stored.advertisement.routes, a.destinationNode ∈ net.nodes

/-- What holds of the advertisements a node has stored. -/
structure AdsGood (ads : RouteAdvertisements) : Prop where
  valid : AdsValid x.prefixAddress ads
  distinct : AdsDistinct ads
  inside : AdsInside net ads

end

/-! ## One round -/

section
variable {net : Network} {x : RoundInputs}

theorem advertisedRoute_cases {targetNeighbor : NodeId} {r : Route} :
    advertisedRoute (some targetNeighbor) .poisonReverse r
      = some (if r.nextHop = targetNeighbor then { r with metric := routeMetricInfinity } else r) := by
  unfold advertisedRoute
  by_cases hhop : r.nextHop = targetNeighbor
  · rw [if_pos (congrArg some hhop), if_pos hhop]
  · rw [if_neg fun h => hhop (Option.some.inj h), if_neg hhop]

theorem toldTo_routes (round : Nat) (u v : NodeId) (table : RouteTable) :
    (toldTo x round u v table).routes
      = table.map fun r => if r.nextHop = u then { r with metric := routeMetricInfinity } else r := by
  simp only [toldTo, routeCreateAdvertisement, advertisedRoute_cases]
  rw [← List.filterMap_eq_map]
  rfl

theorem forM_ok {α : Type} {f : α → Except String Unit} {xs : List α}
    (h : ∀ a ∈ xs, f a = .ok ()) : xs.forM f = .ok () := by
  induction xs with
  | nil => rfl
  | cons a rest ih =>
      have hrest := ih fun b hb => h b (List.mem_cons_of_mem _ hb)
      show (f a >>= fun _ => rest.forM f) = .ok ()
      rw [h a List.mem_cons_self]
      exact hrest

/-- What a node tells of a sound table, a neighbour accepts. -/
theorem toldTo_valid (round : Nat) (u : NodeId) {v : NodeId} {table : RouteTable}
    (hv : v ≠ zero 32) (hsound : TableSound table) (haddressed : Addressed x.prefixAddress table)
    (hmetric : ∀ r ∈ table, r.metric ≤ routeMetricInfinity)
    (hlength : table.length ≤ maxRouteTableEntries) :
    validateRouteAdvertisement (toldTo x round u v table) x.prefixAddress = .ok () := by
  have hsender : (toldTo x round u v table).sender = v := rfl
  unfold validateRouteAdvertisement
  rw [hsender, toldTo_routes, List.length_map, if_neg (by simp [hv, hlength])]
  refine forM_ok fun a ha => ?_
  obtain ⟨r, hr, rfl⟩ := List.mem_map.mp ha
  have hnamed := hsound.named r hr
  have haddress := haddressed r hr
  by_cases hhop : r.nextHop = u
  · simp [hhop, validateRoute, hnamed, haddress]
  · simp [hhop, validateRoute, hnamed, haddress, hmetric r hr]

theorem foldl_deliver_lookup {now : Nat} (told : NodeId → RouteAdvertisement) {vs : List NodeId}
    (hnodup : vs.Nodup)
    (hvalid : ∀ v ∈ vs, validateRouteAdvertisement (told v) x.prefixAddress = .ok ())
    (ads : RouteAdvertisements) (n : NodeId) :
    (vs.foldl (fun ads v => deliver x ads v (told v) now) ads).lookup n
      = if n ∈ vs then some { advertisement := told n, receivedAtMs := now } else ads.lookup n := by
  induction vs generalizing ads with
  | nil => simp
  | cons v rest ih =>
      obtain ⟨hv, hrest⟩ := List.nodup_cons.mp hnodup
      have hstored : deliver x ads v (told v) now
          = ads.insert v { advertisement := told v, receivedAtMs := now } := by
        rw [deliver, hvalid v List.mem_cons_self]
      rw [List.foldl_cons, hstored, ih hrest fun w hw => hvalid w (List.mem_cons_of_mem _ hw)]
      by_cases hn : n = v
      · subst hn
        simp [hv]
      · simp [hn, AList.lookup_insert_ne hn]

/-- What a node's table is like in every round. -/
structure TableGood (net : Network) (x : RoundInputs) (round : Nat) (u : NodeId) : Prop where
  sound : TableSound (roundTable net x round u)
  addressed : Addressed x.prefixAddress (roundTable net x round u)
  inside : ∀ r ∈ roundTable net x round u, r.destinationNode ∈ net.nodes
  metric : ∀ r ∈ roundTable net x round u, 1 ≤ r.metric ∧ r.metric < routeMetricInfinity
  best : ∀ dest, Best (offersFor (x.peers round u) (roundAds net x round u) (x.time round u) dest)
    (tableEntry (roundTable net x round u) dest)

theorem TableGood.length {round : Nat} {u : NodeId} (h : TableGood net x round u) :
    (roundTable net x round u).length ≤ maxRouteTableEntries := by
  have hsub : ((roundTable net x round u).map Route.destinationNode).toFinset
      ⊆ net.nodes.toFinset := by
    intro d hd
    obtain ⟨r, hr, rfl⟩ := List.mem_map.mp (List.mem_toFinset.mp hd)
    exact List.mem_toFinset.mpr (h.inside r hr)
  have hcard := Finset.card_le_card hsub
  rw [List.toFinset_card_of_nodup h.sound.distinct, List.length_map,
    List.toFinset_card_of_nodup net.nodup] at hcard
  exact hcard.trans net.short

theorem tableGood (hlinks : StaticLinks net x) {round : Nat} {u : NodeId} (hu : u ∈ net.nodes)
    (hads : AdsGood net x (roundAds net x round u)) : TableGood net x round u := by
  have hpeers := hlinks.valid round u hu
  have hsound := hads.valid.adsSound hads.distinct
  have hcandidate : ∀ r, Candidate (x.peers round u) (roundAds net x round u) (x.time round u) r →
      r.destinationNode ∈ net.nodes ∧ 1 ≤ r.metric := by
    intro r hr
    cases hr with
    | @direct p hp halive =>
        have hadj := (hlinks.live round u hu p.id).mp ⟨p, hp, rfl, halive⟩
        exact ⟨net.inside p.id u (net.symm u p.id hadj), le_rfl⟩
    | @advertised n stored a hconnected hstored ha hother hfinite =>
        exact ⟨hads.inside n stored hstored a ha, Nat.le_add_right 1 a.metric⟩
  have hfits : Fits (x.peers round u) (roundAds net x round u) (x.time round u) := by
    refine ⟨net.nodes.toFinset, ?_, fun r hr => List.mem_toFinset.mpr (hcandidate r hr).1⟩
    rw [List.toFinset_card_of_nodup net.nodup]
    exact net.short
  have hmem := fun r hr =>
    ((mem_rebuildRoutingTable hpeers.toPeersSound hsound hfits (r := r)).mp hr).1
  exact
    { sound := (rebuild_find hpeers.toPeersSound hsound.adsNamed hfits (zero 32)).1
      addressed := rebuild_addressed hpeers hads.valid (hfits.room hpeers.toPeersSound)
      inside := fun r hr => (hcandidate r (hmem r hr)).1
      metric := fun r hr => ⟨(hcandidate r (hmem r hr)).2, (hmem r hr).finite⟩
      best := rebuild_entry hpeers.toPeersSound hsound hfits }

/-- After a round a node has what its neighbours told it, and of the others
what it had. -/
theorem roundAds_succ_lookup {round : Nat} {u : NodeId}
    (hgood : ∀ v ∈ net.nodes, TableGood net x round v) (n : NodeId) :
    (roundAds net x (round + 1) u).lookup n
      = if n ∈ net.neighbors u then
          some { advertisement := toldTo x round u n (roundTable net x round n)
                 receivedAtMs := x.time round u }
        else (roundAds net x round u).lookup n := by
  rw [roundAds]
  refine foldl_deliver_lookup (fun v => toldTo x round u v (roundTable net x round v))
    (net.nodup.filter _) (fun v hv => ?_) _ n
  have hv' : v ∈ net.nodes := List.mem_of_mem_filter hv
  have hv := hgood v hv'
  exact toldTo_valid round u (net.named v hv') hv.sound hv.addressed
    (fun r hr => (hv.metric r hr).2.le) hv.length

/-- The step of the induction over the rounds. -/
theorem adsGood_succ {round : Nat} {u : NodeId}
    (hgood : ∀ v ∈ net.nodes, TableGood net x round v)
    (hads : AdsGood net x (roundAds net x round u)) :
    AdsGood net x (roundAds net x (round + 1) u) := by
  have hlookup := roundAds_succ_lookup (u := u) hgood
  have hcases : ∀ n stored, (roundAds net x (round + 1) u).lookup n = some stored →
      (roundAds net x round u).lookup n = some stored
        ∨ n ∈ net.nodes
          ∧ stored.advertisement = toldTo x round u n (roundTable net x round n) := by
    intro n stored hstored
    rw [hlookup n] at hstored
    by_cases hn : n ∈ net.neighbors u
    · rw [if_pos hn, Option.some.injEq] at hstored
      exact .inr ⟨List.mem_of_mem_filter hn, hstored ▸ rfl⟩
    · rw [if_neg hn] at hstored
      exact .inl hstored
  refine ⟨fun n stored hstored => ?_, fun n stored hstored => ?_, fun n stored hstored => ?_⟩
  · rcases hcases n stored hstored with hold | ⟨hn, hnew⟩
    · exact hads.valid n stored hold
    · have hv := hgood n hn
      rw [hnew]
      exact ⟨rfl, toldTo_valid round u (net.named n hn) hv.sound hv.addressed
        (fun r hr => (hv.metric r hr).2.le) hv.length⟩
  · rcases hcases n stored hstored with hold | ⟨hn, hnew⟩
    · exact hads.distinct n stored hold
    · have hmap : (toldTo x round u n (roundTable net x round n)).routes.map Route.destinationNode
          = (roundTable net x round n).map Route.destinationNode := by
        rw [toldTo_routes, List.map_map]
        refine List.map_congr_left fun r _ => ?_
        show Route.destinationNode (if r.nextHop = u then _ else r) = r.destinationNode
        split <;> rfl
      rw [hnew, hmap]
      exact (hgood n hn).sound.distinct
  · rcases hcases n stored hstored with hold | ⟨hn, hnew⟩
    · exact hads.inside n stored hold
    · intro a ha
      rw [hnew, toldTo_routes] at ha
      obtain ⟨r, hr, rfl⟩ := List.mem_map.mp ha
      have hr' := (hgood n hn).inside r hr
      split
      · exact hr'
      · exact hr'

theorem round_good (hlinks : StaticLinks net x)
    (hinitial : ∀ u ∈ net.nodes, AdsGood net x (x.initial u)) (round : Nat) :
    ∀ u ∈ net.nodes, AdsGood net x (roundAds net x round u) ∧ TableGood net x round u := by
  induction round with
  | zero =>
      intro u hu
      have hads : AdsGood net x (roundAds net x 0 u) := hinitial u hu
      exact ⟨hads, tableGood hlinks hu hads⟩
  | succ round ih =>
      intro u hu
      have hads := adsGood_succ (fun v hv => (ih v hv).2) (ih u hu).1
      exact ⟨hads, tableGood hlinks hu hads⟩

/-! ## The rounds of the abstract algorithm -/

/-- The entries of all tables; nothing outside the network. -/
def roundEntries (net : Network) (x : RoundInputs) (round : Nat) : Table NodeId := fun u dest =>
  if u ∈ net.nodes then tableEntry (roundTable net x round u) dest else ⊤

theorem tableEntry_eq_offer {table : RouteTable} (hsound : TableSound table) {dest : NodeId}
    {m : Nat} {hop : NodeId} :
    tableEntry table dest = offer m hop
      ↔ ∃ r ∈ table, r.destinationNode = dest ∧ r.metric = m ∧ r.nextHop = hop := by
  constructor
  · intro h
    cases hfind : routingFindRoute table dest with
    | none =>
        rw [tableEntry, hfind] at h
        exact absurd h WithTop.top_ne_coe
    | some r =>
        rw [tableEntry, hfind] at h
        obtain ⟨hr, hdest⟩ := routingFindRoute_some hfind
        exact ⟨r, hr, hdest, offer_inj.mp (WithTop.coe_inj.mp h)⟩
  · rintro ⟨r, hr, rfl, rfl, rfl⟩
    rw [tableEntry, routingFindRoute_of_mem hsound.distinct hr]
    rfl

/-- A node is offered the direct link, and what its neighbours had in the
round before and does not lead back to it. -/
theorem round_offers (hlinks : StaticLinks net x) {round : Nat}
    (hgood : ∀ v ∈ net.nodes, TableGood net x round v) {u dest : NodeId}
    (hu : u ∈ net.nodes) :
    offersFor (x.peers (round + 1) u) (roundAds net x (round + 1) u) (x.time (round + 1) u) dest
      = offers net.graph routeMetricInfinity (roundEntries net x round) u dest := by
  ext c
  constructor
  · rintro (⟨hlive, rfl⟩ | ⟨v, hv, stored, a, hlookup, ha, had, hne, hfinite, rfl⟩)
    · exact .inl ⟨(hlinks.live (round + 1) u hu dest).mp hlive, rfl⟩
    · have hadj := (hlinks.connected (round + 1) u hu v).mp (mem_advertisingNeighbors.mp hv).2
      have hvnodes := net.inside v u (net.symm u v hadj)
      rw [roundAds_succ_lookup hgood, if_pos (net.mem_neighbors.mpr hadj),
        Option.some.injEq] at hlookup
      rw [← hlookup, toldTo_routes] at ha
      obtain ⟨r, hr, hra⟩ := List.mem_map.mp ha
      by_cases hhop : r.nextHop = u
      · rw [if_pos hhop] at hra
        rw [← hra] at hfinite
        exact absurd hfinite (show ¬ 1 + routeMetricInfinity < routeMetricInfinity by decide)
      · rw [if_neg hhop] at hra
        subst hra
        refine .inr ⟨v, r.metric, r.nextHop, hadj, hne.symm, ?_, hhop, ?_, ?_⟩
        · rw [roundEntries, if_pos hvnodes, tableEntry_eq_offer (hgood v hvnodes).sound]
          exact ⟨r, hr, had, rfl, rfl⟩
        · rwa [add_comm]
        · rw [add_comm]
  · rintro (⟨hadj, rfl⟩ | ⟨v, m, hop, hadj, hne, hentry, hhop, hfinite, rfl⟩)
    · exact .inl ⟨(hlinks.live (round + 1) u hu dest).mpr hadj, rfl⟩
    · have hvnodes := net.inside v u (net.symm u v hadj)
      rw [roundEntries, if_pos hvnodes, tableEntry_eq_offer (hgood v hvnodes).sound] at hentry
      obtain ⟨r, hr, hdest, rfl, rfl⟩ := hentry
      have hlookup := roundAds_succ_lookup (u := u) hgood v
      rw [if_pos (net.mem_neighbors.mpr hadj)] at hlookup
      have hv : v ∈ advertisingNeighbors (x.peers (round + 1) u) (roundAds net x (round + 1) u) :=
        mem_advertisingNeighbors.mpr ⟨AList.lookup_isSome.mp (by rw [hlookup]; rfl),
          (hlinks.connected (round + 1) u hu v).mpr hadj⟩
      refine .inr ⟨v, hv, _, r, hlookup, ?_, hdest, hne.symm, ?_, ?_⟩
      · rw [toldTo_routes]
        exact List.mem_map.mpr ⟨r, hr, if_neg hhop⟩
      · rwa [add_comm]
      · rw [add_comm]

theorem roundEntries_rounds (hlinks : StaticLinks net x)
    (hinitial : ∀ u ∈ net.nodes, AdsGood net x (x.initial u)) :
    Rounds net.graph routeMetricInfinity (roundEntries net x) where
  first u dest m hop _ hentry := by
    by_cases hu : u ∈ net.nodes
    · have hgood := (round_good hlinks hinitial 0 u hu).2
      rw [roundEntries, if_pos hu, tableEntry_eq_offer hgood.sound] at hentry
      obtain ⟨r, hr, -, rfl, -⟩ := hentry
      exact (hgood.metric r hr).1
    · rw [roundEntries, if_neg hu] at hentry
      exact absurd hentry WithTop.top_ne_coe
  next round u dest _ := by
    by_cases hu : u ∈ net.nodes
    · have hgood := fun v hv => (round_good hlinks hinitial round v hv).2
      rw [← round_offers hlinks hgood hu, roundEntries, if_pos hu]
      exact (round_good hlinks hinitial (round + 1) u hu).2.best dest
    · have hempty : offers net.graph routeMetricInfinity (roundEntries net x round) u dest = ∅ := by
        refine Set.eq_empty_of_forall_notMem ?_
        rintro c (⟨hadj, -⟩ | ⟨v, -, -, hadj, -⟩)
        · exact hu (net.inside u dest hadj)
        · exact hu (net.inside u v hadj)
      rw [hempty, roundEntries, if_neg hu]
      exact .empty

/-! ## Following the next hops -/

/-- The nodes that a packet for `dest` passes. -/
def followHops (tables : NodeId → RouteTable) (dest : NodeId) : Nat → NodeId → List NodeId
  | 0, u => [u]
  | fuel + 1, u =>
      if u = dest then [u]
      else
        match routingFindRoute (tables u) dest with
        | none => [u]
        | some r => u :: followHops tables dest fuel r.nextHop

/-- The route a node should have: as long as the distance, over the smallest
neighbour that is one step closer. -/
structure ShortestRoute (net : Network) (u dest : NodeId) (r : Route) : Prop where
  metric : r.metric = net.graph.dist u dest
  nextHop : IsLeast {v | net.graph.Adj u v ∧ net.graph.Reachable v dest
    ∧ net.graph.dist v dest + 1 = net.graph.dist u dest} r.nextHop

/-- Each hop is one step closer, so no node is passed twice and the
destination is reached. -/
theorem followHops_reaches {tables : NodeId → RouteTable} {dest : NodeId}
    (hshortest : ∀ u ∈ net.nodes, u ≠ dest → net.graph.Reachable u dest →
      ∃ r, routingFindRoute (tables u) dest = some r ∧ ShortestRoute net u dest r)
    (fuel : Nat) {u : NodeId} (hu : u ∈ net.nodes) (hreach : net.graph.Reachable u dest)
    (hfuel : net.graph.dist u dest ≤ fuel) :
    (followHops tables dest fuel u).getLast? = some dest
      ∧ (followHops tables dest fuel u).Nodup
      ∧ ∀ w ∈ followHops tables dest fuel u, net.graph.dist w dest ≤ net.graph.dist u dest := by
  induction fuel generalizing u with
  | zero =>
      have hself : u = dest := by
        by_contra hne
        have hpos := hreach.pos_dist_of_ne hne
        omega
      rw [hself]
      simp [followHops]
  | succ fuel ih =>
      by_cases hself : u = dest
      · rw [hself]
        simp [followHops]
      · obtain ⟨r, hfind, hr⟩ := hshortest u hu hself hreach
        obtain ⟨⟨hadj, hnext, hcloser⟩, -⟩ := hr.nextHop
        have hnextnodes := net.inside r.nextHop u (net.symm u r.nextHop hadj)
        obtain ⟨hlast, hnodup, hbound⟩ := ih hnextnodes hnext (by omega)
        have hunfold : followHops tables dest (fuel + 1) u
            = u :: followHops tables dest fuel r.nextHop := by
          rw [followHops, if_neg hself, hfind]
        rw [hunfold]
        refine ⟨?_, ?_, ?_⟩
        · rw [List.getLast?_cons, hlast]
          rfl
        · refine List.nodup_cons.mpr ⟨fun hmem => ?_, hnodup⟩
          have hle := hbound u hmem
          omega
        · intro w hw
          rcases List.mem_cons.mp hw with rfl | hw
          · exact le_rfl
          · have hle := hbound w hw
            omega

/-! ## Convergence -/

theorem round_shortest (hlinks : StaticLinks net x) {round : Nat}
    (hinitial : ∀ u ∈ net.nodes, AdsGood net x (x.initial u))
    (hround : routeMetricInfinity ≤ round + 1) {u dest : NodeId} (hu : u ∈ net.nodes)
    (hne : u ≠ dest) :
    Best (shortest net.graph u dest) (tableEntry (roundTable net x round u) dest) := by
  have hbound : ∀ a b, net.graph.Reachable a b → net.graph.dist a b < routeMetricInfinity := by
    intro a b hreach
    by_cases ha : a ∈ net.nodes
    · exact net.dist_lt ha hreach
    · -- outside the network a node reaches itself only
      have hself : a = b := by
        obtain ⟨p⟩ := hreach
        cases p with
        | nil => rfl
        | cons hadj _ => exact absurd (net.inside a _ hadj) ha
      rw [hself, SimpleGraph.dist_self]
      decide
  have hbest := (roundEntries_rounds hlinks hinitial).converged (by decide) hbound hround hne
  rwa [roundEntries, if_pos hu] at hbest

/-- After 16 rounds, and in every round after, each table has a route to
every other node that can be reached and to no other; it is as long as the
distance, over the smallest neighbour on a shortest path, and a packet that
follows the next hops arrives without passing a node twice. -/
theorem rounds_converge (hlinks : StaticLinks net x) {round : Nat}
    (hinitial : ∀ u ∈ net.nodes, AdsGood net x (x.initial u))
    (hround : 16 ≤ round + 1) {u dest : NodeId} (hu : u ∈ net.nodes) (hne : u ≠ dest) :
    ((∃ r ∈ roundTable net x round u, r.destinationNode = dest) ↔ net.graph.Reachable u dest)
      ∧ (∀ r ∈ roundTable net x round u, r.destinationNode = dest → ShortestRoute net u dest r)
      ∧ ((roundTable net x round u).map Route.destinationNode).Nodup
      ∧ (net.graph.Reachable u dest →
        (followHops (roundTable net x round) dest 16 u).getLast? = some dest
          ∧ (followHops (roundTable net x round) dest 16 u).Nodup) := by
  have hroute : ∀ v ∈ net.nodes, v ≠ dest → ∀ r, routingFindRoute (roundTable net x round v) dest
      = some r → ShortestRoute net v dest r := by
    intro v hv hvne r hfind
    have hbest := round_shortest hlinks hinitial hround hv hvne
    rw [tableEntry, hfind] at hbest
    obtain ⟨w, hadj, hreach, hdist, heq⟩ := hbest.mem _ rfl
    obtain ⟨hmetric, hhop⟩ := offer_inj.mp heq
    refine ⟨hmetric, ⟨?_, ?_⟩⟩
    · rw [hhop]
      exact ⟨hadj, hreach, hdist⟩
    · rintro w' ⟨hadj', hreach', hdist'⟩
      have hle := WithTop.coe_le_coe.mp (hbest.le _ ⟨w', hadj', hreach', hdist', rfl⟩)
      rcases offer_le.mp hle with hlt | ⟨-, hle⟩
      · exact absurd hmetric hlt.ne
      · exact hle
  have hexists : ∀ v ∈ net.nodes, v ≠ dest → net.graph.Reachable v dest →
      ∃ r, routingFindRoute (roundTable net x round v) dest = some r := by
    intro v hv hvne hreach
    have hbest := round_shortest hlinks hinitial hround hv hvne
    obtain ⟨w, hadj, hw, hdist⟩ := exists_closer hvne hreach
    have hle := hbest.le _ ⟨w, hadj, hw, hdist, rfl⟩
    cases hfind : routingFindRoute (roundTable net x round v) dest with
    | none =>
        rw [tableEntry, hfind] at hle
        exact absurd (top_le_iff.mp hle) WithTop.coe_ne_top
    | some r => exact ⟨r, rfl⟩
  have hsound := (round_good hlinks hinitial round u hu).2.sound
  refine ⟨⟨?_, ?_⟩, ?_, hsound.distinct, ?_⟩
  · rintro ⟨r, hr, rfl⟩
    obtain ⟨hadj, hreach, -⟩ :=
      (hroute u hu hne r (routingFindRoute_of_mem hsound.distinct hr)).nextHop.1
    exact hadj.reachable.trans hreach
  · intro hreach
    obtain ⟨r, hr⟩ := hexists u hu hne hreach
    exact ⟨r, routingFindRoute_some hr⟩
  · rintro r hr rfl
    exact hroute u hu hne r (routingFindRoute_of_mem hsound.distinct hr)
  · intro hreach
    have hshortest : ∀ v ∈ net.nodes, v ≠ dest → net.graph.Reachable v dest →
        ∃ r, routingFindRoute (roundTable net x round v) dest = some r
          ∧ ShortestRoute net v dest r := by
      intro v hv hvne hvreach
      obtain ⟨r, hr⟩ := hexists v hv hvne hvreach
      exact ⟨r, hr, hroute v hv hvne r hr⟩
    obtain ⟨hlast, hnodup, -⟩ := followHops_reaches hshortest 16 hu hreach
      (net.dist_lt hu hreach).le
    exact ⟨hlast, hnodup⟩

end

/-- Two linked nodes. -/
def pairNetwork : Network where
  nodes := [nodeOf 1, nodeOf 2]
  linked u v := (u = nodeOf 1 ∧ v = nodeOf 2) ∨ (u = nodeOf 2 ∧ v = nodeOf 1)
  nodup := by decide
  short := by decide
  named := by decide
  symm u v h := by
    rw [decide_eq_true_eq] at h ⊢
    tauto
  irrefl u := by
    rw [decide_eq_false_iff_not]
    rintro (⟨rfl, h⟩ | ⟨rfl, h⟩)
    · exact absurd h (by decide)
    · exact absurd h (by decide)
  inside u v h := by
    rw [decide_eq_true_eq] at h
    rcases h with ⟨rfl, -⟩ | ⟨rfl, -⟩ <;> simp

/-- The first of them starts with a stale route to itself. -/
def pairInputs : RoundInputs where
  prefixAddress := overlayNetwork
  peers _ u := if u = nodeOf 1 then [livePeer 2] else [livePeer 1]
  time _ _ := 1000
  sequence round _ _ := UInt64.ofNat (round + 1)
  generation _ _ := 1
  initial u := if u = nodeOf 1 then adsOf [adOf 2 [(1, 5)]] else ∅

theorem pairNetwork_adj {u v : NodeId} : pairNetwork.graph.Adj u v
    ↔ (u = nodeOf 1 ∧ v = nodeOf 2) ∨ (u = nodeOf 2 ∧ v = nodeOf 1) :=
  decide_eq_true_iff

theorem pair_staticLinks : StaticLinks pairNetwork pairInputs := by
  have hne : nodeOf 1 ≠ nodeOf 2 := by decide
  have halive : ∀ n, peerIsAlive (livePeer n) 1000 peerTimeoutMs = true := fun n => rfl
  have hview : ∀ n id, (∃ p ∈ [livePeer n], p.id = id ∧ peerIsAlive p 1000 peerTimeoutMs)
      ↔ id = nodeOf n := by
    intro n id
    constructor
    · rintro ⟨p, hp, rfl, -⟩
      rw [List.mem_singleton.mp hp]
      rfl
    · rintro rfl
      exact ⟨livePeer n, List.mem_singleton.mpr rfl, rfl, halive n⟩
  have hconnected : ∀ n id, isConnected [livePeer n] id ↔ id = nodeOf n := by
    intro n id
    rw [isConnected_iff, ← hview n id]
    constructor
    · rintro ⟨p, hp, hid, -⟩
      rw [List.mem_singleton.mp hp] at hid
      exact ⟨_, List.mem_singleton.mpr rfl, hid, halive n⟩
    · rintro ⟨p, hp, hid, hp'⟩
      exact ⟨p, hp, hid, peerIsAlive_connected hp'⟩
  have hvalid : PeersValid overlayNetwork [livePeer 1] ∧ PeersValid overlayNetwork [livePeer 2] :=
    ⟨⟨⟨by decide, by decide⟩, by decide⟩,
      ⟨⟨by decide, by decide⟩, by decide⟩⟩
  have hnodes : ∀ u ∈ pairNetwork.nodes, u = nodeOf 1 ∨ u = nodeOf 2 := by
    intro u hu
    simpa [pairNetwork] using hu
  refine ⟨fun round u hu => ?_, fun round u hu id => ?_, fun round u hu id => ?_⟩
  all_goals rcases hnodes u hu with rfl | rfl
  · simpa [pairInputs] using hvalid.2
  · simpa [pairInputs, hne.symm] using hvalid.1
  · rw [pairNetwork_adj]
    simpa [pairInputs, hne] using hview 2 id
  · rw [pairNetwork_adj]
    simpa [pairInputs, hne, hne.symm] using hview 1 id
  · rw [pairNetwork_adj]
    simpa [pairInputs, hne] using hconnected 2 id
  · rw [pairNetwork_adj]
    simpa [pairInputs, hne, hne.symm] using hconnected 1 id

theorem rounds_converge_pair :
    ∃ r ∈ roundTable pairNetwork pairInputs 15 (nodeOf 1), r.destinationNode = nodeOf 2 := by
  have hempty : AdsGood pairNetwork pairInputs ∅ :=
    ⟨forall_lookup (by decide), forall_lookup (by decide), forall_lookup (by decide)⟩
  have hstale : AdsGood pairNetwork pairInputs (adsOf [adOf 2 [(1, 5)]]) :=
    ⟨forall_lookup (by decide), forall_lookup (by decide),
      forall_lookup (by decide)⟩
  have hinitial : ∀ u ∈ pairNetwork.nodes, AdsGood pairNetwork pairInputs (pairInputs.initial u) := by
    intro u _
    show AdsGood _ _ (if u = nodeOf 1 then _ else _)
    split
    · exact hstale
    · exact hempty
  have hu : nodeOf 1 ∈ pairNetwork.nodes := by simp [pairNetwork]
  have hadj : pairNetwork.graph.Adj (nodeOf 1) (nodeOf 2) :=
    pairNetwork_adj.mpr (.inl ⟨rfl, rfl⟩)
  have hround : 16 ≤ 15 + 1 := by decide
  exact (rounds_converge pair_staticLinks hinitial hround hu hadj.ne).1.mpr hadj.reachable

end Madoka

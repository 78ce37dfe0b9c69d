import Madoka.Network.SameRoutes
import Madoka.Network.Topology

/-!
# Rebuild

The route table computed afresh from the topology and the advertisements the
neighbours sent last (`rebuild_routing_table` of `core/daemon.cpp`). One
destination at a time it is the best of the candidates: the direct link, and
what the connected neighbours advertise.
-/

namespace Madoka

open Octets DistanceVector

def peerTimeoutMs : Nat := 5000

structure StoredRouteAdvertisement where
  advertisement : RouteAdvertisement
  receivedAtMs : Nat
deriving DecidableEq

abbrev RouteAdvertisements := AList fun _ : NodeId => StoredRouteAdvertisement

def directRoute (timestamp : Nat) (peer : Peer) : Route :=
  routeCreate peer.virtualAddress peer.id 1 timestamp peer.id

@[simp] theorem directRoute_destinationNode (timestamp : Nat) (peer : Peer) :
    (directRoute timestamp peer).destinationNode = peer.id := rfl

/-- The routes to the peers that are connected and alive. -/
def directRoutes (peers : List Peer) (timestamp : Nat) : RouteTable :=
  peers.foldl (fun table peer =>
      if peer.state ≠ .connected ∨ !peerIsAlive peer timestamp peerTimeoutMs then table
      else (routingAddRoute table (directRoute timestamp peer)).2)
    routingInit

/-- A peer of that identifier is connected, alive or not. -/
def isConnected (peers : List Peer) (id : NodeId) : Bool :=
  (peers.find? fun candidate => candidate.id = id ∧ candidate.state = .connected).isSome

/-- Whose advertisements count, in the order of their identifiers. -/
def advertisingNeighbors (peers : List Peer) (ads : RouteAdvertisements) : List NodeId :=
  (ads.keys.filter (isConnected peers)).insertionSort fun a b => a ≤ b

def applyStored (ads : RouteAdvertisements) (timestamp : Nat) (table : RouteTable)
    (neighbor : NodeId) : RouteTable :=
  match ads.lookup neighbor with
  | none => table
  | some stored =>
      (distanceVectorUpdate table neighbor stored.advertisement timestamp 1 none).table

def rebuildRoutingTable (peers : List Peer) (ads : RouteAdvertisements) (timestamp : Nat) :
    RouteTable :=
  (advertisingNeighbors peers ads).foldl (applyStored ads timestamp) (directRoutes peers timestamp)

/-! ## The inputs -/

/-- The peers of a topology. -/
structure PeersSound (peers : List Peer) : Prop where
  named : ∀ p ∈ peers, p.id ≠ zero 32
  distinct : (peers.map Peer.id).Nodup

/-- An advertisement names each destination once. -/
structure RoutesSound (routes : List Route) : Prop where
  named : RoutesNamed routes
  distinct : (routes.map Route.destinationNode).Nodup

/-- The peers that `activate_neighbor` adds. -/
structure PeersValid (network : IPv6) (peers : List Peer) : Prop extends PeersSound peers where
  addressed : ∀ p ∈ peers, p.virtualAddress = virtualAddress network p.id

/-- Each advertisement is stored under its sender and names destinations. -/
def AdsNamed (ads : RouteAdvertisements) : Prop :=
  ∀ n stored, ads.lookup n = some stored →
    stored.advertisement.sender = n ∧ RoutesNamed stored.advertisement.routes

def AdsSound (ads : RouteAdvertisements) : Prop :=
  ∀ n stored, ads.lookup n = some stored →
    stored.advertisement.sender = n ∧ RoutesSound stored.advertisement.routes

theorem AdsSound.adsNamed {ads : RouteAdvertisements} (h : AdsSound ads) : AdsNamed ads :=
  fun n stored hlookup => ⟨(h n stored hlookup).1, (h n stored hlookup).2.named⟩

/-- The advertisements that `run_session` stores: each under its sender, and
each accepted by the validator. -/
def AdsValid (network : IPv6) (ads : RouteAdvertisements) : Prop :=
  ∀ n stored, ads.lookup n = some stored → stored.advertisement.sender = n
    ∧ validateRouteAdvertisement stored.advertisement network = .ok ()

theorem AdsValid.adsNamed {network : IPv6} {ads : RouteAdvertisements} (h : AdsValid network ads) :
    AdsNamed ads :=
  fun n stored hlookup =>
    ⟨(h n stored hlookup).1, (validateRouteAdvertisement_ok (h n stored hlookup).2).1⟩

/-- The advertisements name each destination once. -/
def AdsDistinct (ads : RouteAdvertisements) : Prop :=
  ∀ n stored, ads.lookup n = some stored →
    (stored.advertisement.routes.map Route.destinationNode).Nodup

theorem AdsValid.adsSound {network : IPv6} {ads : RouteAdvertisements} (h : AdsValid network ads)
    (hdistinct : AdsDistinct ads) : AdsSound ads :=
  fun n stored hlookup =>
    ⟨(h n stored hlookup).1, (h.adsNamed n stored hlookup).2, hdistinct n stored hlookup⟩

/-- The routes that compete for the table. -/
inductive Candidate (peers : List Peer) (ads : RouteAdvertisements) (timestamp : Nat) :
    Route → Prop where
  | direct {peer : Peer} (hpeer : peer ∈ peers)
      (halive : peerIsAlive peer timestamp peerTimeoutMs) :
      Candidate peers ads timestamp (directRoute timestamp peer)
  | advertised {neighbor : NodeId} {stored : StoredRouteAdvertisement} {a : Route}
      (hconnected : isConnected peers neighbor) (hstored : ads.lookup neighbor = some stored)
      (ha : a ∈ stored.advertisement.routes) (hother : a.destinationNode ≠ neighbor)
      (hfinite : 1 + a.metric < routeMetricInfinity) :
      Candidate peers ads timestamp (offeredRoute neighbor timestamp 1 a)

/-- The destinations of the candidates lie in a set. -/
def Covers (destinations : Finset NodeId) (peers : List Peer) (ads : RouteAdvertisements)
    (timestamp : Nat) : Prop :=
  ∀ r, Candidate peers ads timestamp r → r.destinationNode ∈ destinations

/-- All destinations fit in the table. -/
def Fits (peers : List Peer) (ads : RouteAdvertisements) (timestamp : Nat) : Prop :=
  ∃ destinations : Finset NodeId, destinations.card ≤ maxRouteTableEntries
    ∧ Covers destinations peers ads timestamp

/-- Everything that is named at all. -/
def allDestinations (peers : List Peer) (ads : RouteAdvertisements) : Finset NodeId :=
  (peers.map Peer.id ++ ads.entries.flatMap fun entry =>
    entry.2.advertisement.routes.map Route.destinationNode).toFinset

theorem covers_allDestinations {peers : List Peer} {ads : RouteAdvertisements} {timestamp : Nat} :
    Covers (allDestinations peers ads) peers ads timestamp := by
  intro r hr
  rw [allDestinations, List.mem_toFinset, List.mem_append]
  cases hr with
  | direct hpeer _ => exact .inl (List.mem_map_of_mem hpeer)
  | @advertised n stored a _ hstored ha _ _ =>
      right
      rw [List.mem_flatMap]
      exact ⟨⟨n, stored⟩, AList.mem_lookup_iff.mp hstored, List.mem_map.mpr ⟨a, ha, rfl⟩⟩

/-! ## One destination -/

/-- The direct route to a destination. -/
def directFor (peers : List Peer) (timestamp : Nat) (dest : NodeId) : Option Route :=
  (peers.find? fun p => p.id = dest ∧ peerIsAlive p timestamp peerTimeoutMs).map
    (directRoute timestamp)

/-- What a neighbour's stored advertisement does to the route of a destination. -/
def mergeStored (ads : RouteAdvertisements) (timestamp : Nat) (dest : NodeId)
    (existing : Option Route) (neighbor : NodeId) : Option Route :=
  match ads.lookup neighbor with
  | none => existing
  | some stored => mergeRoute neighbor timestamp 1 stored.advertisement dest existing

def rebuildRoute (peers : List Peer) (ads : RouteAdvertisements) (timestamp : Nat)
    (dest : NodeId) : Option Route :=
  (advertisingNeighbors peers ads).foldl (mergeStored ads timestamp dest)
    (directFor peers timestamp dest)

section
variable {peers : List Peer} {ads : RouteAdvertisements} {timestamp : Nat}

theorem mem_advertisingNeighbors {n : NodeId} :
    n ∈ advertisingNeighbors peers ads ↔ n ∈ ads ∧ isConnected peers n := by
  rw [advertisingNeighbors, List.mem_insertionSort, List.mem_filter, AList.mem_keys]

theorem advertisingNeighbors_nodup : (advertisingNeighbors peers ads).Nodup :=
  (List.perm_insertionSort _ _).nodup_iff.mpr (ads.nodupKeys.filter _)

/-! ## Direct routes -/

def livePeers (peers : List Peer) (timestamp : Nat) : List Peer :=
  peers.filter fun p => peerIsAlive p timestamp peerTimeoutMs

theorem peerIsAlive_connected {p : Peer} {currentTime timeoutMs : Nat}
    (h : peerIsAlive p currentTime timeoutMs) : p.state = .connected := by
  by_contra hstate
  simp [peerIsAlive, hstate] at h

theorem directRoutes_eq (hpeers : PeersSound peers)
    (hroom : (livePeers peers timestamp).length ≤ maxRouteTableEntries) :
    directRoutes peers timestamp = (livePeers peers timestamp).map (directRoute timestamp) := by
  -- the table holds the routes of the peers passed so far
  have key : ∀ (rest done : List Peer), PeersSound (done ++ rest) →
      (livePeers (done ++ rest) timestamp).length ≤ maxRouteTableEntries →
      rest.foldl (fun table peer =>
          if peer.state ≠ .connected ∨ !peerIsAlive peer timestamp peerTimeoutMs then table
          else (routingAddRoute table (directRoute timestamp peer)).2)
        ((livePeers done timestamp).map (directRoute timestamp))
      = (livePeers (done ++ rest) timestamp).map (directRoute timestamp) := by
    intro rest
    induction rest with
    | nil => simp
    | cons p rest ih =>
        intro done hsound hlen
        have happend : done ++ p :: rest = (done ++ [p]) ++ rest := by simp
        have hrec := ih (done ++ [p]) (happend ▸ hsound) (happend ▸ hlen)
        rw [happend, ← hrec, List.foldl_cons]
        congr 1
        by_cases halive : peerIsAlive p timestamp peerTimeoutMs
        · have hstate := peerIsAlive_connected halive
          rw [if_neg (by simp [hstate, halive])]
          have hdistinct := hsound.distinct
          rw [List.map_append, List.map_cons, List.nodup_middle, List.nodup_cons, List.mem_append,
            not_or] at hdistinct
          have hnone : ∀ f : Route → Route × Bool, FirstMatch.update
              (fun existing => sameDestination (directRoute timestamp p) existing) f
              ((livePeers done timestamp).map (directRoute timestamp)) = none := by
            intro f
            refine FirstMatch.update_eq_none.mpr fun r hr => ?_
            obtain ⟨q, hq, rfl⟩ := List.mem_map.mp hr
            have hq' : q ∈ done := List.mem_of_mem_filter hq
            have hp := hsound.named p (List.mem_append_right _ List.mem_cons_self)
            rw [sameDestination_named hp (hsound.named q (List.mem_append_left _ hq'))]
            refine decide_eq_false fun heq => hdistinct.1.1 ?_
            exact List.mem_map.mpr ⟨q, hq', heq.symm⟩
          have hshort : ((livePeers done timestamp).map (directRoute timestamp)).length
              < maxRouteTableEntries := by
            simp only [livePeers, List.filter_append, List.filter_cons, halive, if_true,
              List.length_append, List.length_cons, List.length_map] at hlen ⊢
            omega
          rw [routingAddRoute, hnone]
          dsimp only
          rw [if_neg (not_le.mpr hshort)]
          simp [livePeers, halive]
        · rw [if_pos (by simp [halive])]
          simp [livePeers, halive]
  exact key peers [] hpeers hroom

theorem directRoutes_sound (hpeers : PeersSound peers)
    (hroom : (livePeers peers timestamp).length ≤ maxRouteTableEntries) :
    TableSound (directRoutes peers timestamp) := by
  rw [directRoutes_eq hpeers hroom]
  refine ⟨fun r hr => ?_, ?_⟩
  · obtain ⟨p, hp, rfl⟩ := List.mem_map.mp hr
    exact hpeers.named p (List.mem_of_mem_filter hp)
  · rw [List.map_map]
    exact hpeers.distinct.sublist (List.filter_sublist.map _)

theorem directFor_some {dest : NodeId} {r : Route}
    (h : directFor peers timestamp dest = some r) :
    ∃ p ∈ peers, p.id = dest ∧ peerIsAlive p timestamp peerTimeoutMs
      ∧ r = directRoute timestamp p := by
  obtain ⟨p, hp, rfl⟩ := Option.map_eq_some_iff.mp h
  have hfound := List.find?_some hp
  rw [decide_eq_true_eq] at hfound
  exact ⟨p, List.mem_of_find?_eq_some hp, hfound.1, hfound.2, rfl⟩

theorem directFor_of_mem (hpeers : PeersSound peers) {p : Peer} (hp : p ∈ peers)
    (halive : peerIsAlive p timestamp peerTimeoutMs) :
    directFor peers timestamp p.id = some (directRoute timestamp p) := by
  cases hfind : directFor peers timestamp p.id with
  | none =>
      rw [directFor, Option.map_eq_none_iff, List.find?_eq_none] at hfind
      exact absurd (decide_eq_true ⟨rfl, halive⟩) (hfind p hp)
  | some r =>
      obtain ⟨q, hq, hid, -, rfl⟩ := directFor_some hfind
      rw [List.inj_on_of_nodup_map hpeers.distinct hq hp hid]

theorem directRoutes_find (hpeers : PeersSound peers)
    (hroom : (livePeers peers timestamp).length ≤ maxRouteTableEntries) (dest : NodeId) :
    routingFindRoute (directRoutes peers timestamp) dest = directFor peers timestamp dest := by
  ext r
  rw [routingFindRoute_eq_some (directRoutes_sound hpeers hroom).distinct,
    directRoutes_eq hpeers hroom, List.mem_map]
  constructor
  · rintro ⟨⟨p, hp, rfl⟩, rfl⟩
    obtain ⟨hmem, halive⟩ := List.mem_filter.mp hp
    exact directFor_of_mem hpeers hmem halive
  · intro h
    obtain ⟨p, hp, hid, halive, rfl⟩ := directFor_some h
    exact ⟨⟨p, List.mem_filter.mpr ⟨hp, halive⟩, rfl⟩, hid⟩

/-! ## The rebuilt table -/

theorem applyStored_eq {table : RouteTable} {neighbor : NodeId}
    {stored : StoredRouteAdvertisement} (hlookup : ads.lookup neighbor = some stored)
    (hsender : stored.advertisement.sender = neighbor) :
    applyStored ads timestamp table neighbor
      = (applyRoutes table neighbor stored.advertisement timestamp 1).1 := by
  simp [applyStored, hlookup, distanceVectorUpdate, hsender]

theorem directRoutes_within (hpeers : PeersSound peers)
    (hroom : (livePeers peers timestamp).length ≤ maxRouteTableEntries)
    {destinations : Finset NodeId} (hcovers : Covers destinations peers ads timestamp) :
    TableWithin destinations (directRoutes peers timestamp) := by
  rw [directRoutes_eq hpeers hroom]
  intro r hr
  obtain ⟨p, hp, rfl⟩ := List.mem_map.mp hr
  obtain ⟨hmem, halive⟩ := List.mem_filter.mp hp
  exact hcovers _ (.direct hmem halive)

/-- Each step of the rebuild treats the destination for itself; where the
destinations may not fit, as long as it keeps a route. -/
theorem rebuild_find_of (hpeers : PeersSound peers) (hads : AdsNamed ads)
    (hroom : (livePeers peers timestamp).length ≤ maxRouteTableEntries)
    {destinations : Finset NodeId} (hcovers : Covers destinations peers ads timestamp)
    (dest : NodeId)
    (hadmits : destinations.card ≤ maxRouteTableEntries
      ∨ ∀ before n after stored, advertisingNeighbors peers ads = before ++ n :: after →
        ads.lookup n = some stored →
        ((before.foldl (mergeStored ads timestamp dest) (directFor peers timestamp dest)).filter
          fun r => !withdrawn n stored.advertisement r).isSome) :
    TableSound (rebuildRoutingTable peers ads timestamp)
      ∧ TableWithin destinations (rebuildRoutingTable peers ads timestamp)
      ∧ routingFindRoute (rebuildRoutingTable peers ads timestamp) dest
        = rebuildRoute peers ads timestamp dest := by
  -- the neighbours passed so far have made the table what `rebuildRoute` says
  have key : ∀ rest done table, advertisingNeighbors peers ads = done ++ rest →
      TableSound table → TableWithin destinations table →
      routingFindRoute table dest
        = done.foldl (mergeStored ads timestamp dest) (directFor peers timestamp dest) →
      TableSound (rest.foldl (applyStored ads timestamp) table)
        ∧ TableWithin destinations (rest.foldl (applyStored ads timestamp) table)
        ∧ routingFindRoute (rest.foldl (applyStored ads timestamp) table) dest
          = (done ++ rest).foldl (mergeStored ads timestamp dest)
              (directFor peers timestamp dest) := by
    intro rest
    induction rest with
    | nil =>
        intro done table _ hsound hwithin hfind
        rw [List.append_nil]
        exact ⟨hsound, hwithin, hfind⟩
    | cons n rest ih =>
        intro done table hsplit hsound hwithin hfind
        have hn : n ∈ advertisingNeighbors peers ads := by
          rw [hsplit]
          exact List.mem_append_right _ List.mem_cons_self
        obtain ⟨hstored, hconnected⟩ := mem_advertisingNeighbors.mp hn
        obtain ⟨stored, hlookup⟩ := Option.isSome_iff_exists.mp
          (AList.lookup_isSome.mpr hstored)
        obtain ⟨hsender, hnamed⟩ := hads n stored hlookup
        have hstep := applyRoutes_find n timestamp 1 stored.advertisement dest hsound hnamed hwithin
          (fun a ha hfinite hother =>
            hcovers (offeredRoute n timestamp 1 a) (.advertised hconnected hlookup ha hother hfinite))
          (hadmits.imp id fun h => by rw [hfind]; exact h done n rest stored hsplit hlookup)
        rw [List.foldl_cons, applyStored_eq hlookup hsender]
        have happend : done ++ n :: rest = (done ++ [n]) ++ rest := by simp
        rw [happend]
        refine ih (done ++ [n]) _ (happend ▸ hsplit) hstep.1 hstep.2.1 ?_
        rw [hstep.2.2, hfind, List.foldl_append]
        simp [mergeStored, hlookup]
  exact key _ [] _ rfl (directRoutes_sound hpeers hroom)
    (directRoutes_within hpeers hroom hcovers) (directRoutes_find hpeers hroom dest)

/-! ## The best candidate -/

/-- The candidates for a destination through a neighbour. -/
def candidatesVia (ads : RouteAdvertisements) (timestamp : Nat) (dest neighbor : NodeId) :
    Set Route :=
  {r | ∃ stored a, ads.lookup neighbor = some stored ∧ a ∈ stored.advertisement.routes
    ∧ a.destinationNode = dest ∧ dest ≠ neighbor ∧ 1 + a.metric < routeMetricInfinity
    ∧ r = offeredRoute neighbor timestamp 1 a}

/-- Of the routes of an advertisement at most one is for a destination. -/
theorem RoutesSound.filter_cases {routes : List Route} (h : RoutesSound routes) (dest : NodeId) :
    (routes.filter fun a => a.destinationNode = dest) = []
      ∨ ∃ a, (routes.filter fun a => a.destinationNode = dest) = [a] := by
  have hdistinct : ((routes.filter fun a => a.destinationNode = dest).map
      Route.destinationNode).Nodup := h.distinct.sublist (List.filter_sublist.map _)
  have hdest : ∀ a ∈ routes.filter (fun a => a.destinationNode = dest),
      a.destinationNode = dest := fun a ha => by simpa using List.of_mem_filter ha
  match hlist : routes.filter fun a => a.destinationNode = dest with
  | [] => exact .inl hlist
  | [a] => exact .inr ⟨a, hlist⟩
  | a :: b :: rest =>
      rw [hlist] at hdistinct hdest
      have ha := hdest a List.mem_cons_self
      have hb := hdest b (List.mem_cons_of_mem _ List.mem_cons_self)
      simp [ha, hb] at hdistinct

theorem withdrawn_other {neighbor : NodeId} {advertisement : RouteAdvertisement} {r : Route}
    (h : r.nextHop ≠ neighbor ∨ r.destinationNode = neighbor) :
    withdrawn neighbor advertisement r = false := by
  rw [withdrawn, if_pos h]

/-- A neighbour's advertisement offers its candidate to a route that leads
elsewhere. -/
theorem mergeStored_chosen (timestamp : Nat) {dest neighbor : NodeId} {candidates : Set Route}
    {existing : Option Route}
    (hsound : ∀ stored, ads.lookup neighbor = some stored →
      RoutesSound stored.advertisement.routes)
    (h : Chosen candidates existing)
    (hother : ∀ r, existing = some r → r.nextHop ≠ neighbor ∨ dest = neighbor)
    (hdest : ∀ r, existing = some r → r.destinationNode = dest) :
    Chosen (candidates ∪ candidatesVia ads timestamp dest neighbor)
      (mergeStored ads timestamp dest existing neighbor) := by
  have hempty : candidatesVia ads timestamp dest neighbor = ∅ →
      Chosen (candidates ∪ candidatesVia ads timestamp dest neighbor) existing := by
    intro hset
    rwa [hset, Set.union_empty]
  unfold mergeStored
  cases hlookup : ads.lookup neighbor with
  | none =>
      refine hempty (Set.eq_empty_of_forall_notMem ?_)
      rintro r ⟨stored, a, hstored, -⟩
      rw [hlookup] at hstored
      cases hstored
  | some stored =>
      have hkept : (existing.filter fun r => !withdrawn neighbor stored.advertisement r)
          = existing := by
        cases existing with
        | none => rfl
        | some r =>
            have hr := (hother r rfl).imp id fun heq => (hdest r rfl).trans heq
            simp [withdrawn_other hr]
      dsimp only
      rw [mergeRoute, hkept, meetRoutes]
      by_cases hself : dest = neighbor
      · rw [if_pos hself]
        refine hempty (Set.eq_empty_of_forall_notMem ?_)
        rintro r ⟨-, -, -, -, -, hne, -⟩
        exact hne hself
      · rw [if_neg hself]
        have hmem : ∀ a, a ∈ stored.advertisement.routes ∧ a.destinationNode = dest
            ↔ a ∈ stored.advertisement.routes.filter fun a => a.destinationNode = dest := by
          intro a
          rw [List.mem_filter, decide_eq_true_eq]
        rcases (hsound stored hlookup).filter_cases dest with hnil | ⟨a, hone⟩
        · rw [hnil] at hmem ⊢
          refine hempty (Set.eq_empty_of_forall_notMem ?_)
          rintro r ⟨stored', a, hstored', ha, had, -⟩
          rw [hlookup, Option.some.injEq] at hstored'
          subst hstored'
          exact List.not_mem_nil ((hmem a).mp ⟨ha, had⟩)
        · rw [hone] at hmem ⊢
          have hset : candidatesVia ads timestamp dest neighbor
              = offeredRoutes neighbor timestamp 1 a := by
            ext r
            constructor
            · rintro ⟨stored', b, hstored', hb, hbd, -, hfinite, rfl⟩
              rw [hlookup, Option.some.injEq] at hstored'
              subst hstored'
              obtain rfl := List.mem_singleton.mp ((hmem b).mp ⟨hb, hbd⟩)
              exact ⟨hfinite, rfl⟩
            · rintro ⟨hfinite, rfl⟩
              obtain ⟨ha, had⟩ := (hmem a).mpr (List.mem_singleton.mpr rfl)
              exact ⟨stored, a, hlookup, ha, had, hself, hfinite, rfl⟩
          rw [hset]
          exact h.meetRoute (fun r hr => (hother r hr).resolve_right hself) a

variable (ads) in
/-- The neighbours one after the other: the best of what there was and what
they offer. -/
theorem foldl_mergeStored_chosen (timestamp : Nat) (dest : NodeId) {neighbors : List NodeId}
    (hnodup : neighbors.Nodup)
    (hsound : ∀ n ∈ neighbors, ∀ stored, ads.lookup n = some stored →
      RoutesSound stored.advertisement.routes)
    {candidates : Set Route} {existing : Option Route} (h : Chosen candidates existing)
    (hother : ∀ r ∈ candidates, r.nextHop ∈ neighbors → dest = r.nextHop)
    (hdest : ∀ r ∈ candidates, r.destinationNode = dest) :
    Chosen (candidates ∪ {r | ∃ n ∈ neighbors, r ∈ candidatesVia ads timestamp dest n})
      (neighbors.foldl (mergeStored ads timestamp dest) existing) := by
  induction neighbors generalizing candidates existing with
  | nil => simpa using h
  | cons n rest ih =>
      obtain ⟨hn, hrest⟩ := List.nodup_cons.mp hnodup
      have hstep := mergeStored_chosen timestamp (hsound n List.mem_cons_self) h
        (fun r hr => by
          by_cases hhop : r.nextHop = n
          · right
            rw [hother r (h.mem r hr) (hhop ▸ List.mem_cons_self), hhop]
          · exact .inl hhop)
        fun r hr => hdest r (h.mem r hr)
      have hall := ih hrest (fun m hm => hsound m (List.mem_cons_of_mem _ hm)) hstep
        (by
          rintro r (hr | ⟨stored, a, -, -, -, -, -, rfl⟩) hmem
          · exact hother r hr (List.mem_cons_of_mem _ hmem)
          · exact absurd hmem hn)
        (by
          rintro r (hr | ⟨stored, a, -, -, hd, -, -, rfl⟩)
          · exact hdest r hr
          · exact hd)
      have hset : candidates ∪ candidatesVia ads timestamp dest n
            ∪ {r | ∃ m ∈ rest, r ∈ candidatesVia ads timestamp dest m}
          = candidates ∪ {r | ∃ m ∈ n :: rest, r ∈ candidatesVia ads timestamp dest m} := by
        ext r
        simp [or_assoc]
      rw [hset] at hall
      exact hall

theorem isConnected_of_mem {p : Peer} (hp : p ∈ peers) (hstate : p.state = .connected) :
    isConnected peers p.id := by
  rw [isConnected, List.find?_isSome]
  exact ⟨p, hp, by simp [hstate]⟩

theorem directFor_chosen (hpeers : PeersSound peers) (timestamp : Nat) (dest : NodeId) :
    Chosen {r | ∃ p ∈ peers, peerIsAlive p timestamp peerTimeoutMs ∧ p.id = dest
      ∧ r = directRoute timestamp p} (directFor peers timestamp dest) := by
  cases hfind : directFor peers timestamp dest with
  | none =>
      have hset : {r | ∃ p ∈ peers, peerIsAlive p timestamp peerTimeoutMs ∧ p.id = dest
          ∧ r = directRoute timestamp p} = ∅ := by
        refine Set.eq_empty_of_forall_notMem ?_
        rintro r ⟨p, hp, halive, rfl, -⟩
        rw [directFor_of_mem hpeers hp halive] at hfind
        cases hfind
      rw [hset]
      exact .none
  | some r =>
      obtain ⟨p, hp, rfl, halive, rfl⟩ := directFor_some hfind
      have hset : {r | ∃ q ∈ peers, peerIsAlive q timestamp peerTimeoutMs ∧ q.id = p.id
          ∧ r = directRoute timestamp q} = {directRoute timestamp p} := by
        ext r
        rw [Set.mem_singleton_iff]
        constructor
        · rintro ⟨q, hq, -, hid, rfl⟩
          rw [List.inj_on_of_nodup_map hpeers.distinct hq hp hid]
        · rintro rfl
          exact ⟨p, hp, halive, rfl, rfl⟩
      rw [hset]
      exact .some _

/-- For each destination the rebuild picks the best candidate. -/
theorem rebuildRoute_chosen (timestamp : Nat) (hpeers : PeersSound peers) (hads : AdsSound ads)
    (dest : NodeId) :
    Chosen {r | Candidate peers ads timestamp r ∧ r.destinationNode = dest}
      (rebuildRoute peers ads timestamp dest) := by
  have hnodup : (advertisingNeighbors peers ads).Nodup := advertisingNeighbors_nodup
  have hfold := foldl_mergeStored_chosen ads timestamp dest hnodup
    (fun n hn stored hlookup => (hads n stored hlookup).2)
    (directFor_chosen hpeers timestamp dest)
    (by
      rintro r ⟨p, -, -, rfl, rfl⟩ -
      rfl)
    (by
      rintro r ⟨p, -, -, hid, rfl⟩
      exact hid)
  have hset : {r | ∃ p ∈ peers, peerIsAlive p timestamp peerTimeoutMs ∧ p.id = dest
        ∧ r = directRoute timestamp p}
      ∪ {r | ∃ n ∈ advertisingNeighbors peers ads, r ∈ candidatesVia ads timestamp dest n}
      = {r | Candidate peers ads timestamp r ∧ r.destinationNode = dest} := by
    ext r
    constructor
    · rintro (⟨p, hp, halive, hid, rfl⟩ | ⟨n, hn, stored, a, hlookup, ha, had, hne, hfinite, rfl⟩)
      · exact ⟨.direct hp halive, hid⟩
      · refine ⟨.advertised (mem_advertisingNeighbors.mp hn).2 hlookup ha ?_ hfinite, had⟩
        rwa [had]
    · rintro ⟨hcandidate, hdest⟩
      cases hcandidate with
      | direct hp halive => exact .inl ⟨_, hp, halive, hdest, rfl⟩
      | @advertised n stored a hconnected hlookup ha hother hfinite =>
          have hn : n ∈ ads := AList.lookup_isSome.mp (by rw [hlookup]; rfl)
          have had : a.destinationNode = dest := hdest
          exact .inr ⟨n, mem_advertisingNeighbors.mpr ⟨hn, hconnected⟩, stored, a, hlookup, ha, had,
            fun heq => hother (had.trans heq), hfinite, rfl⟩
  rw [hset] at hfold
  exact hfold

theorem Fits.room (hpeers : PeersSound peers) (hfits : Fits peers ads timestamp) :
    (livePeers peers timestamp).length ≤ maxRouteTableEntries := by
  obtain ⟨destinations, hcard, hcovers⟩ := hfits
  have hnodup : ((livePeers peers timestamp).map Peer.id).Nodup :=
    hpeers.distinct.sublist (List.filter_sublist.map _)
  have hsub : ((livePeers peers timestamp).map Peer.id).toFinset ⊆ destinations := by
    intro d hd
    obtain ⟨p, hp, rfl⟩ := List.mem_map.mp (List.mem_toFinset.mp hd)
    obtain ⟨hmem, halive⟩ := List.mem_filter.mp hp
    exact hcovers _ (.direct hmem halive)
  have hlen := Finset.card_le_card hsub
  rw [List.toFinset_card_of_nodup hnodup, List.length_map] at hlen
  exact hlen.trans hcard

/-- The rebuilt table is the map of the best candidates. -/
theorem rebuild_find (hpeers : PeersSound peers) (hads : AdsNamed ads)
    (hfits : Fits peers ads timestamp) (dest : NodeId) :
    TableSound (rebuildRoutingTable peers ads timestamp)
      ∧ routingFindRoute (rebuildRoutingTable peers ads timestamp) dest
        = rebuildRoute peers ads timestamp dest := by
  have hroom := hfits.room hpeers
  obtain ⟨destinations, hcard, hcovers⟩ := hfits
  obtain ⟨hsound, -, hfind⟩ := rebuild_find_of hpeers hads hroom hcovers dest (.inl hcard)
  exact ⟨hsound, hfind⟩

/-! ## Offers -/

/-- A live neighbour offers itself. -/
def directOffers (peers : List Peer) (timestamp : Nat) (dest : NodeId) : Set (Offer NodeId) :=
  {c | (∃ p ∈ peers, p.id = dest ∧ peerIsAlive p timestamp peerTimeoutMs) ∧ c = offer 1 dest}

/-- What a neighbour's stored advertisement offers for a destination. -/
def viaOffers (ads : RouteAdvertisements) (dest neighbor : NodeId) : Set (Offer NodeId) :=
  {c | ∃ stored a, ads.lookup neighbor = some stored ∧ a ∈ stored.advertisement.routes
    ∧ a.destinationNode = dest ∧ dest ≠ neighbor ∧ 1 + a.metric < routeMetricInfinity
    ∧ c = offer (1 + a.metric) neighbor}

/-- All that is offered for a destination. -/
def offersFor (peers : List Peer) (ads : RouteAdvertisements) (timestamp : Nat) (dest : NodeId) :
    Set (Offer NodeId) :=
  directOffers peers timestamp dest
    ∪ {c | ∃ n ∈ advertisingNeighbors peers ads, c ∈ viaOffers ads dest n}

theorem image_candidates (dest : NodeId) :
    routeOffer '' {r | Candidate peers ads timestamp r ∧ r.destinationNode = dest}
      = offersFor peers ads timestamp dest := by
  ext c
  constructor
  · rintro ⟨r, ⟨hcandidate, hdest⟩, rfl⟩
    cases hcandidate with
    | direct hp halive =>
        have hid : Peer.id _ = dest := hdest
        exact .inl ⟨⟨_, hp, hid, halive⟩, by rw [← hid]; rfl⟩
    | @advertised n stored a hconnected hlookup ha hother hfinite =>
        have hn : n ∈ ads := AList.lookup_isSome.mp (by rw [hlookup]; rfl)
        have had : a.destinationNode = dest := hdest
        exact .inr ⟨n, mem_advertisingNeighbors.mpr ⟨hn, hconnected⟩, stored, a, hlookup, ha, had,
          had ▸ hother, hfinite, rfl⟩
  · rintro (⟨⟨p, hp, rfl, halive⟩, rfl⟩ | ⟨n, hn, stored, a, hlookup, ha, had, hne, hfinite, rfl⟩)
    · exact ⟨_, ⟨.direct hp halive, rfl⟩, rfl⟩
    · have hconnected := (mem_advertisingNeighbors.mp hn).2
      exact ⟨_, ⟨.advertised hconnected hlookup ha (had ▸ hne) hfinite, had⟩, rfl⟩

/-- The entry of a rebuilt table is the best offer. -/
theorem rebuild_entry (hpeers : PeersSound peers) (hads : AdsSound ads)
    (hfits : Fits peers ads timestamp) (dest : NodeId) :
    Best (offersFor peers ads timestamp dest)
      (tableEntry (rebuildRoutingTable peers ads timestamp) dest) := by
  rw [tableEntry, (rebuild_find hpeers hads.adsNamed hfits dest).2, ← image_candidates]
  exact (rebuildRoute_chosen timestamp hpeers hads dest).best

end

end Madoka

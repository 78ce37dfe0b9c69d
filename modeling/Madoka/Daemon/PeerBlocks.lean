import Madoka.Daemon.Neighbors
import Madoka.Daemon.RouteChoice
import Madoka.Network.UpdateEffect

/-!
# Peer Blocks

What each locked block does to the topology, told by the entry of one peer:
the identifiers stay distinct, the other entries stay as they are. And which
entry a rebuild needs to have a direct route.
-/

namespace Madoka

open Octets DistanceVector

/-! ## Entries -/

section
variable {topo : Topology} {id other : NodeId} {change : Peer → Peer} {peer : Peer}

theorem topologyFindPeer_mem (h : topologyFindPeer topo id = some peer) :
    peer ∈ topo ∧ peer.id = id :=
  ⟨List.mem_of_find?_eq_some h, by simpa using List.find?_some h⟩

theorem topologyFindPeer_of_mem (hdistinct : (topo.map Peer.id).Nodup) (h : peer ∈ topo) :
    topologyFindPeer topo peer.id = some peer := by
  obtain ⟨before, after, rfl⟩ := List.append_of_mem h
  rw [List.map_append, List.map_cons, List.nodup_middle, List.nodup_cons, List.mem_append,
    not_or] at hdistinct
  refine FirstMatch.find?_split (fun q hq => ?_) (by simp)
  rw [decide_eq_false_iff_not]
  intro heq
  exact hdistinct.1.1 (heq ▸ List.mem_map_of_mem hq)

theorem topologyFindPeer_append (topo : Topology) (peer : Peer) (id : NodeId) :
    topologyFindPeer (topo ++ [peer]) id
      = (topologyFindPeer topo id).or (if peer.id = id then some peer else none) := by
  rw [topologyFindPeer, List.find?_append, List.find?_singleton]
  simp [topologyFindPeer]

/-- Entries that are rewritten and keep their identifiers. -/
theorem topologyFindPeer_map (h : ∀ p, (change p).id = p.id) :
    topologyFindPeer (topo.map change) id = (topologyFindPeer topo id).map change := by
  have hcongr : (fun p : Peer => decide (p.id = id)) ∘ change = fun p => decide (p.id = id) := by
    funext p
    simp [h]
  rw [topologyFindPeer, List.find?_map, hcongr]
  rfl

theorem map_id_map (h : ∀ p, (change p).id = p.id) :
    (topo.map change).map Peer.id = topo.map Peer.id := by
  rw [List.map_map]
  exact List.map_congr_left fun p _ => h p

/-- The topology with one entry rewritten. -/
def changeAt (id : NodeId) (change : Peer → Peer) (peer : Peer) : Peer :=
  if peer.id = id then change peer else peer

theorem changeAt_id (h : ∀ p, (change p).id = p.id) (p : Peer) :
    (changeAt id change p).id = p.id := by
  unfold changeAt
  split <;> simp [h]

theorem topologyFindPeer_changeAt (h : ∀ p, (change p).id = p.id) :
    topologyFindPeer (topo.map (changeAt id change)) other
      = (topologyFindPeer topo other).map fun p => if other = id then change p else p := by
  rw [topologyFindPeer_map (changeAt_id h)]
  cases hfind : topologyFindPeer topo other with
  | none => rfl
  | some p => simp [changeAt, (topologyFindPeer_mem hfind).2]

theorem topologyModify_eq (hdistinct : (topo.map Peer.id).Nodup) :
    topologyModify topo id change
      = (topologyFindPeer topo id).map fun p => (topo.map (changeAt id change), p) := by
  unfold topologyModify
  cases hupdate : FirstMatch.update (fun p => decide (p.id = id)) (fun p => (change p, p)) topo with
  | none =>
      have hnone : topologyFindPeer topo id = none :=
        List.find?_eq_none.mpr fun p hp => by simpa using FirstMatch.update_eq_none.mp hupdate p hp
      rw [hnone]
      rfl
  | some result =>
      obtain ⟨topo', p⟩ := result
      have hmap := FirstMatch.update_eq_map hdistinct hupdate
      obtain ⟨before, q, after, rfl, hbefore, hq, -, hp⟩ := FirstMatch.update_eq_some hupdate
      have hfind : topologyFindPeer (before ++ q :: after) id = some p := by
        rw [hp]
        exact FirstMatch.find?_split hbefore hq
      rw [hfind, Option.map_some, hmap]
      rfl

end

/-! ## What is connected, what is alive -/

section
variable {network : IPv6} {peers topo : List Peer} {id : NodeId} {now : Nat}

theorem isConnected_eq_any (hdistinct : (peers.map Peer.id).Nodup) :
    isConnected peers id = (topologyFindPeer peers id).any fun p => p.state = .connected := by
  rw [Bool.eq_iff_iff, isConnected_iff, Option.any_eq_true]
  constructor
  · rintro ⟨p, hp, rfl, hstate⟩
    exact ⟨p, topologyFindPeer_of_mem hdistinct hp, by simpa using hstate⟩
  · rintro ⟨p, hfind, hstate⟩
    obtain ⟨hp, hid⟩ := topologyFindPeer_mem hfind
    exact ⟨p, hp, hid, by simpa using hstate⟩

/-- A peer is heard of. -/
def IsLive (peers : List Peer) (id : NodeId) (now : Nat) : Prop :=
  ∃ p ∈ peers, p.id = id ∧ peerIsAlive p now peerTimeoutMs

instance (peers : List Peer) (id : NodeId) (now : Nat) : Decidable (IsLive peers id now) :=
  inferInstanceAs (Decidable (∃ p ∈ peers, p.id = id ∧ peerIsAlive p now peerTimeoutMs))

theorem isLive_iff (hdistinct : (peers.map Peer.id).Nodup) :
    IsLive peers id now
      ↔ ∃ p, topologyFindPeer peers id = some p ∧ peerIsAlive p now peerTimeoutMs := by
  constructor
  · rintro ⟨p, hp, rfl, halive⟩
    exact ⟨p, topologyFindPeer_of_mem hdistinct hp, halive⟩
  · rintro ⟨p, hfind, halive⟩
    obtain ⟨hp, hid⟩ := topologyFindPeer_mem hfind
    exact ⟨p, hp, hid, halive⟩

theorem IsLive.isConnected (h : IsLive peers id now) : isConnected peers id = true := by
  obtain ⟨p, hp, hid, halive⟩ := h
  exact isConnected_iff.mpr ⟨p, hp, hid, peerIsAlive_connected halive⟩

/-- What every topology is: its peers are those that `activate_neighbor` adds,
and there is room for no more. -/
structure TopologySound (network : IPv6) (topo : Topology) : Prop extends
    PeersValid network topo where
  bounded : topo.length ≤ maxTopologyPeers

theorem topologySound_nil (network : IPv6) : TopologySound network [] where
  named := by simp
  distinct := by simp
  addressed := by simp
  bounded := by simp

/-- Rewritten entries keep their identifiers and their addresses. -/
theorem TopologySound.map {change : Peer → Peer} (h : TopologySound network topo)
    (hid : ∀ p, (change p).id = p.id)
    (haddress : ∀ p, p.virtualAddress = virtualAddress network p.id →
      (change p).virtualAddress = virtualAddress network p.id) :
    TopologySound network (topo.map change) where
  named q hq := by
    obtain ⟨p, hp, rfl⟩ := List.mem_map.mp hq
    rw [hid]
    exact h.named p hp
  distinct := by
    rw [map_id_map hid]
    exact h.distinct
  addressed q hq := by
    obtain ⟨p, hp, rfl⟩ := List.mem_map.mp hq
    rw [hid]
    exact haddress p (h.addressed p hp)
  bounded := by
    rw [List.length_map]
    exact h.bounded

theorem TopologySound.changeAt {change : Peer → Peer} (h : TopologySound network topo)
    (hid : ∀ p, (change p).id = p.id)
    (haddress : ∀ p, p.id = id → p.virtualAddress = virtualAddress network p.id →
      (change p).virtualAddress = virtualAddress network p.id) :
    TopologySound network (topo.map (changeAt id change)) := by
  refine h.map (changeAt_id hid) fun p hp => ?_
  unfold Madoka.changeAt
  split
  · next hsame => exact haddress p hsame hp
  · exact hp

theorem TopologySound.append {peer : Peer} (h : TopologySound network topo)
    (hnamed : peer.id ≠ zero 32) (haddress : peer.virtualAddress = virtualAddress network peer.id)
    (hnew : topologyFindPeer topo peer.id = none) (hroom : topo.length < maxTopologyPeers) :
    TopologySound network (topo ++ [peer]) where
  named := by simpa [or_imp, forall_and] using ⟨h.named, hnamed⟩
  distinct := by
    rw [List.map_append, List.map_singleton, ← List.concat_eq_append, List.nodup_concat]
    refine ⟨fun hmem => ?_, h.distinct⟩
    obtain ⟨p, hp, hid⟩ := List.mem_map.mp hmem
    rw [← hid, topologyFindPeer_of_mem h.distinct hp] at hnew
    cases hnew
  addressed := by simpa [or_imp, forall_and] using ⟨h.addressed, haddress⟩
  bounded := by
    rw [List.length_append, List.length_singleton]
    exact hroom

end

/-! ## The blocks -/

def Peer.disconnect (peer : Peer) : Peer := { peer with state := .disconnected }

def Peer.heard (now : Nat) (peer : Peer) : Peer := { peer with state := .connected, lastSeen := now }

/-- The entry that `activate_neighbor` adds. -/
def NodeContact.joined (contact : NodeContact) (timestamp : Nat) : Peer where
  id := contact.id
  virtualAddress := contact.virtualAddress
  endpoint := contact.endpoint
  state := .connected
  lastSeen := timestamp

/-- And what it makes of one that is there. -/
def Peer.rejoined (contact : NodeContact) (timestamp : Nat) (peer : Peer) : Peer :=
  { contact.joined timestamp with id := peer.id }

section
variable {network : IPv6} {topo topo' : Topology} {id : NodeId} {now : Nat}

theorem map_changeAt_absent (change : Peer → Peer) (h : topologyFindPeer topo id = none) :
    topo.map (changeAt id change) = topo := by
  refine (List.map_congr_left fun p hp => ?_).trans (List.map_id topo)
  have hne : p.id ≠ id := by simpa using List.find?_eq_none.mp h p hp
  simp [changeAt, hne]

theorem deactivateBlock_eq (hdistinct : (topo.map Peer.id).Nodup) :
    deactivateBlock topo id = topo.map (changeAt id Peer.disconnect) := by
  rw [deactivateBlock, topologyModify_eq hdistinct]
  cases hfind : topologyFindPeer topo id with
  | none => exact (map_changeAt_absent _ hfind).symm
  | some p => rfl

theorem touchBlock_eq (hdistinct : (topo.map Peer.id).Nodup) :
    touchBlock topo id now = (topo.map (changeAt id (Peer.heard now)),
      (topologyFindPeer topo id).any fun p => p.state ≠ .connected) := by
  rw [touchBlock, topologyModify_eq hdistinct]
  cases hfind : topologyFindPeer topo id with
  | none =>
      have hsame := map_changeAt_absent (Peer.heard now) hfind
      simp [hsame]
  | some p => rfl

theorem activateBlock_some {contact : NodeContact} {timestamp : Nat}
    (hdistinct : (topo.map Peer.id).Nodup)
    (h : activateBlock topo contact timestamp = some topo') :
    (topologyFindPeer topo contact.id = none ∧ topo.length < maxTopologyPeers
        ∧ topo' = topo ++ [contact.joined timestamp])
      ∨ (topologyFindPeer topo contact.id).isSome
        ∧ topo' = topo.map (changeAt contact.id (Peer.rejoined contact timestamp)) := by
  unfold activateBlock at h
  cases hfind : topologyFindPeer topo contact.id with
  | none =>
      rw [hfind] at h
      simp only [topologyAddPeer, hfind, Option.isSome_none, Bool.false_eq_true, if_false] at h
      split at h
      · cases h
      · next hroom => exact .inl ⟨rfl, not_le.mp hroom, (Option.some.inj h).symm⟩
  | some p =>
      rw [hfind] at h
      dsimp only at h
      rw [topologyModify_eq hdistinct, hfind] at h
      exact .inr ⟨rfl, (Option.some.inj h).symm⟩

theorem TopologySound.deactivateBlock (h : TopologySound network topo) (id : NodeId) :
    TopologySound network (deactivateBlock topo id) := by
  rw [deactivateBlock_eq h.distinct]
  exact h.changeAt (fun _ => rfl) fun _ _ haddress => haddress

theorem TopologySound.touchBlock (h : TopologySound network topo) (id : NodeId) (now : Nat) :
    TopologySound network (touchBlock topo id now).1 := by
  rw [touchBlock_eq h.distinct]
  exact h.changeAt (fun _ => rfl) fun _ _ haddress => haddress

theorem mayActivate_iff {localId : NodeId} {trust : TrustState} {contact : NodeContact} :
    mayActivate network localId trust contact = true ↔ contact.id ≠ zero 32 ∧ contact.id ≠ localId
      ∧ trustContains trust contact.id = true
      ∧ contact.virtualAddress = virtualAddress network contact.id := by
  rw [mayActivate, decide_eq_true_eq]

theorem TopologySound.activateBlock {contact : NodeContact} {timestamp : Nat}
    (h : TopologySound network topo) (hnamed : contact.id ≠ zero 32)
    (haddress : contact.virtualAddress = virtualAddress network contact.id)
    (hblock : activateBlock topo contact timestamp = some topo') :
    TopologySound network topo' := by
  rcases activateBlock_some h.distinct hblock with ⟨hnew, hroom, rfl⟩ | ⟨-, rfl⟩
  · exact h.append hnamed haddress hnew hroom
  · refine h.changeAt (fun _ => rfl) fun p hp _ => ?_
    rw [hp]
    exact haddress

/-- After its block the peer is connected. -/
theorem activateBlock_find {contact : NodeContact} {timestamp : Nat}
    (hdistinct : (topo.map Peer.id).Nodup)
    (hblock : activateBlock topo contact timestamp = some topo') :
    ∃ p, topologyFindPeer topo' contact.id = some p ∧ p.state = .connected
      ∧ p.lastSeen = timestamp := by
  rcases activateBlock_some hdistinct hblock with ⟨hnew, -, rfl⟩ | ⟨hold, rfl⟩
  · refine ⟨contact.joined timestamp, ?_, rfl, rfl⟩
    rw [topologyFindPeer_append, hnew]
    simp [NodeContact.joined]
  · obtain ⟨p, hp⟩ := Option.isSome_iff_exists.mp hold
    refine ⟨p.rejoined contact timestamp, ?_, rfl, rfl⟩
    have hid : ∀ p, (Peer.rejoined contact timestamp p).id = p.id := fun _ => rfl
    rw [topologyFindPeer_changeAt hid, hp]
    simp

end

/-! ## Direct routes -/

section
variable {network : IPv6} {peers : List Peer} {ads : RouteAdvertisements} {now : Nat} {id : NodeId}

/-- What the neighbours advertise adds no direct route. -/
theorem foldl_applyStored_direct (hads : AdsNamed ads) (neighbors : List NodeId)
    {table : RouteTable} (hsound : TableSound table) {r : Route}
    (hr : r ∈ neighbors.foldl (applyStored ads now) table) (hself : r.nextHop = r.destinationNode) :
    r ∈ table := by
  induction neighbors generalizing table with
  | nil => exact hr
  | cons n neighbors ih =>
      have hstep : TableSound (applyStored ads now table n)
          ∧ (r ∈ applyStored ads now table n → r ∈ table) := by
        cases hlookup : ads.lookup n with
        | none =>
            rw [applyStored, hlookup]
            exact ⟨hsound, fun h => h⟩
        | some stored =>
            obtain ⟨hsender, hnamed⟩ := hads n stored hlookup
            rw [applyStored, hlookup]
            simp only [distanceVectorUpdate, hsender, ne_eq, not_true_eq_false, Option.any_none,
              Bool.false_eq_true, or_self, if_false]
            refine ⟨applyRoutes_sound _ _ hsound hnamed, fun h => ?_⟩
            refine applyRoutes_others hsound hnamed h ?_
            by_cases hn : r.nextHop = n
            · exact .inr (hself.symm.trans hn)
            · exact .inl hn
      exact hstep.2 (ih hstep.1 hr)

/-- A table has the direct route to a node. -/
def HasDirectRoute (table : RouteTable) (id : NodeId) : Prop :=
  ∃ r ∈ table, r.destinationNode = id ∧ r.nextHop = id ∧ r.metric = 1

instance (table : RouteTable) (id : NodeId) : Decidable (HasDirectRoute table id) :=
  inferInstanceAs (Decidable (∃ r ∈ table, r.destinationNode = id ∧ r.nextHop = id ∧ r.metric = 1))

/-- What a rebuild needs to give a node its direct route: the node is heard
of, and no connected neighbour displaces it. -/
def GetsDirectRoute (peers : List Peer) (ads : RouteAdvertisements) (id : NodeId) (now : Nat) :
    Prop :=
  IsLive peers id now ∧ ∀ n, isConnected peers n → ¬ Displaces ads id n

theorem isLive_of_hasDirectRoute (hpeers : TopologySound network peers) (hads : AdsNamed ads)
    (h : HasDirectRoute (rebuildRoutingTable peers ads now) id) : IsLive peers id now := by
  obtain ⟨r, hr, rfl, hhop, -⟩ := h
  have hroom : (livePeers peers now).length ≤ maxRouteTableEntries :=
    (List.length_filter_le _ _).trans hpeers.bounded
  have hdirect := foldl_applyStored_direct hads (advertisingNeighbors peers ads)
    (directRoutes_sound hpeers.toPeersSound hroom) hr hhop
  rw [directRoutes_eq hpeers.toPeersSound hroom] at hdirect
  obtain ⟨p, hp, rfl⟩ := List.mem_map.mp hdirect
  obtain ⟨hp, halive⟩ := List.mem_filter.mp hp
  exact ⟨p, hp, rfl, halive⟩

theorem rebuild_hasDirectRoute_iff (hpeers : TopologySound network peers) (hads : AdsNamed ads) :
    HasDirectRoute (rebuildRoutingTable peers ads now) id ↔ GetsDirectRoute peers ads id now := by
  have hlive : HasDirectRoute (rebuildRoutingTable peers ads now) id → IsLive peers id now :=
    isLive_of_hasDirectRoute hpeers hads
  have key : IsLive peers id now → (HasDirectRoute (rebuildRoutingTable peers ads now) id
      ↔ ∀ n, isConnected peers n → ¬ Displaces ads id n) := by
    rintro ⟨p, hp, rfl, halive⟩
    obtain ⟨hsound, hentry⟩ := rebuild_directOr hpeers.toPeersSound hpeers.bounded hads hp halive
    generalize hfind : routingFindRoute (rebuildRoutingTable peers ads now) p.id = entry at hentry
    cases hentry with
    | direct hnone =>
        refine iff_of_true ⟨_, (routingFindRoute_some hfind).1, rfl, rfl, rfl⟩ ?_
        intro n hconnected hdisplaces
        obtain ⟨stored, a, hlookup, -⟩ := hdisplaces.2
        have hn : n ∈ ads := AList.lookup_isSome.mp (by rw [hlookup]; rfl)
        exact hnone n (mem_advertisingNeighbors.mpr ⟨hn, hconnected⟩) hdisplaces
    | @displaced n r hn hdisplaces hhop hother =>
        refine iff_of_false ?_ fun hnone =>
          hnone n (mem_advertisingNeighbors.mp hn).2 hdisplaces
        rintro ⟨s, hs, hdest, hshop, -⟩
        have hsfind := routingFindRoute_of_mem hsound.distinct hs
        rw [hdest, hfind, Option.some.injEq] at hsfind
        exact hother (hsfind ▸ hshop)
  constructor
  · intro h
    exact ⟨hlive h, (key (hlive h)).mp h⟩
  · rintro ⟨hheard, hnone⟩
    exact (key hheard).mpr hnone

end

end Madoka

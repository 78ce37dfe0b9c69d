import Madoka.Daemon.Contacts
import Madoka.Daemon.RoutingThreads

/-!
# Routing Sync

When the table keeps up with the topology and the stored advertisements: at
any moment either a rebuild is still to come, or the table is the one that a
rebuild would compute.
-/

namespace Madoka

open Octets DistanceVector

/-! ## Rebuilds that agree -/

section
variable {network : IPv6} {peers peers' topo : List Peer} {ads ads' : RouteAdvertisements}
  {timestamp timestamp' now : Nat} {table : RouteTable} {id : NodeId}

theorem FitsTable.fits (h : FitsTable topo ads)
    (hconnected : ∀ id, isConnected peers id = isConnected topo id) (timestamp : Nat) :
    Fits peers ads timestamp := by
  obtain ⟨destinations, hcard, hpeers, hroutes⟩ := h
  refine ⟨destinations, hcard, fun r hr => ?_⟩
  cases hr with
  | @direct p hp halive =>
      have hstate := isConnected_of_mem hp (peerIsAlive_connected halive)
      exact hpeers p.id (by rw [← hconnected]; exact hstate)
  | @advertised n stored a hneighbor hstored ha hother hfinite =>
      exact hroutes n stored a (by rw [← hconnected]; exact hneighbor) hstored ha hother hfinite

/-- The rebuilt table is determined by what is offered for each destination. -/
theorem rebuild_sameRoutes (hpeers : PeersValid network peers) (hpeers' : PeersValid network peers')
    (hads : AdsValid network ads) (hads' : AdsValid network ads') (hdistinct : AdsDistinct ads)
    (hdistinct' : AdsDistinct ads') (hfits : Fits peers ads timestamp)
    (hfits' : Fits peers' ads' timestamp')
    (hoffers : ∀ dest, offersFor peers ads timestamp dest = offersFor peers' ads' timestamp' dest) :
    SameRoutes (rebuildRoutingTable peers ads timestamp)
      (rebuildRoutingTable peers' ads' timestamp') := by
  have hsound := (rebuild_find hpeers.toPeersSound hads.adsNamed hfits (zero 32)).1
  have hsound' := (rebuild_find hpeers'.toPeersSound hads'.adsNamed hfits' (zero 32)).1
  refine sameRoutes_of_entries hsound hsound'
    (rebuild_addressed hpeers hads (hfits.room hpeers.toPeersSound))
    (rebuild_addressed hpeers' hads' (hfits'.room hpeers'.toPeersSound)) fun dest => ?_
  have hbest := rebuild_entry hpeers.toPeersSound (hads.adsSound hdistinct) hfits dest
  rw [hoffers] at hbest
  exact hbest.unique (rebuild_entry hpeers'.toPeersSound (hads'.adsSound hdistinct') hfits' dest)

/-- What a neighbour that is not connected advertises is not offered. -/
theorem offersFor_insert {neighbor : NodeId} {stored : StoredRouteAdvertisement}
    (hconnected : isConnected peers neighbor = false) (dest : NodeId) :
    offersFor peers (ads.insert neighbor stored) timestamp dest
      = offersFor peers ads timestamp dest := by
  have hmem : ∀ n, n ∈ advertisingNeighbors peers (ads.insert neighbor stored)
      ↔ n ∈ advertisingNeighbors peers ads := by
    intro n
    rw [mem_advertisingNeighbors, mem_advertisingNeighbors, AList.mem_insert]
    refine and_congr_left fun hn => or_iff_right fun heq => ?_
    rw [heq, hconnected] at hn
    cases hn
  have hvia : ∀ n ∈ advertisingNeighbors peers ads,
      viaOffers (ads.insert neighbor stored) dest n = viaOffers ads dest n := by
    intro n hn
    have hne : n ≠ neighbor := by
      rintro rfl
      rw [mem_advertisingNeighbors, hconnected] at hn
      cases hn.2
    unfold viaOffers
    rw [AList.lookup_insert_ne hne]
  unfold offersFor
  congr 1
  ext offered
  constructor
  · rintro ⟨n, hn, hoffered⟩
    have hn' := (hmem n).mp hn
    exact ⟨n, hn', hvia n hn' ▸ hoffered⟩
  · rintro ⟨n, hn, hoffered⟩
    exact ⟨n, (hmem n).mpr hn, by rw [hvia n hn]; exact hoffered⟩

theorem SameRoutes.hasDirectRoute {table' : RouteTable} (h : SameRoutes table table')
    (hdirect : HasDirectRoute table id) : HasDirectRoute table' id := by
  obtain ⟨r, hr, hdest, hhop, hmetric⟩ := hdirect
  obtain ⟨r', hr', heq⟩ := h.mem hr
  obtain ⟨-, hdest', hhop', hmetric'⟩ := untimed_eq_iff.mp heq
  exact ⟨r', hr', hdest'.trans hdest, hhop'.trans hhop, hmetric'.trans hmetric⟩

/-- Who is not alive stays so until the next word. -/
theorem IsLive.earlier {earlier : Nat} (h : IsLive topo id now) (hle : earlier ≤ now)
    (hseen : ∀ p ∈ topo, p.lastSeen ≤ earlier) : IsLive topo id earlier := by
  obtain ⟨p, hp, hid, halive⟩ := h
  have hpast := hseen p hp
  refine ⟨p, hp, hid, ?_⟩
  unfold peerIsAlive at halive ⊢
  split_ifs at halive ⊢ with hstate hzero hzero'
  · omega
  · simp only [decide_eq_true_eq] at halive ⊢
    omega

end

/-! ## One entry changes -/

section
variable {topo : Topology} {id other : NodeId} {change : Peer → Peer} {now : Nat}

theorem isConnected_changeAt (hdistinct : (topo.map Peer.id).Nodup)
    (hid : ∀ p, (change p).id = p.id) :
    isConnected (topo.map (changeAt id change)) other
      = (topologyFindPeer topo other).any
          fun p => (if other = id then change p else p).state = .connected := by
  have hdistinct' : ((topo.map (changeAt id change)).map Peer.id).Nodup := by
    rw [map_id_map (changeAt_id hid)]
    exact hdistinct
  rw [isConnected_eq_any hdistinct', topologyFindPeer_changeAt hid, Option.any_map]

theorem isLive_changeAt (hdistinct : (topo.map Peer.id).Nodup)
    (hid : ∀ p, (change p).id = p.id) :
    IsLive (topo.map (changeAt id change)) other now
      ↔ ∃ p, topologyFindPeer topo other = some p
        ∧ peerIsAlive (if other = id then change p else p) now peerTimeoutMs := by
  have hdistinct' : ((topo.map (changeAt id change)).map Peer.id).Nodup := by
    rw [map_id_map (changeAt_id hid)]
    exact hdistinct
  rw [isLive_iff hdistinct', topologyFindPeer_changeAt hid]
  cases topologyFindPeer topo other <;> simp

end

/-! ## In step with a rebuild -/

/-- The table is a rebuild from peers that are connected just when those of
the topology are, and that leave out nobody who is alive. -/
def Synced (network : IPv6) (s : RoutingState) (now : Nat) : Prop :=
  ∃ peers timestamp, TopologySound network peers
    ∧ (∀ id, isConnected peers id = isConnected s.topology id)
    ∧ (∀ id, IsLive s.topology id now → IsLive peers id timestamp)
    ∧ SameRoutes s.table (rebuildRoutingTable peers s.advertisements timestamp)

structure RoutingSound (network : IPv6) (s : RoutingState) (now : Nat) : Prop where
  topology : TopologySound network s.topology
  seen : ∀ p ∈ s.topology, p.lastSeen ≤ now
  advertisements : AdsValid network s.advertisements
  distinct : AdsDistinct s.advertisements

/-- What a thread knows before a block. -/
def RoutingBlock.Sound (network : IPv6) (now : Nat) : RoutingBlock → Prop
  | .activate contact timestamp =>
      contact.id ≠ zero 32 ∧ contact.virtualAddress = virtualAddress network contact.id
        ∧ timestamp ≤ now
  | .advertise sender advertisement =>
      advertisement.sender = sender
        ∧ validateRouteAdvertisement advertisement network = .ok ()
  | .install peers => TopologySound network peers
  | _ => True

section
variable {network : IPv6} {s : RoutingState} {now now' : Nat} {id : NodeId}

theorem RoutingSound.later (h : RoutingSound network s now) (hle : now ≤ now') :
    RoutingSound network s now' :=
  { h with seen := fun p hp => (h.seen p hp).trans hle }

theorem RoutingBlock.Sound.later {block : RoutingBlock} (h : block.Sound network now)
    (hle : now ≤ now') : block.Sound network now' := by
  cases block with
  | activate contact timestamp => exact ⟨h.1, h.2.1, h.2.2.trans hle⟩
  | _ => exact h

theorem Synced.later (h : Synced network s now) (hsound : RoutingSound network s now)
    (hle : now ≤ now') : Synced network s now' := by
  obtain ⟨peers, timestamp, hpeers, hconnected, hlive, htable⟩ := h
  exact ⟨peers, timestamp, hpeers, hconnected,
    fun id hid => hlive id (hid.earlier hle hsound.seen), htable⟩

/-- What the table is compared with at the end: the rebuild from the topology
as it is, once all connected peers are alive. -/
theorem Synced.inSync (h : Synced network s now) (hsound : RoutingSound network s now)
    (hfits : FitsTable s.topology s.advertisements)
    (halive : ∀ p ∈ s.topology, p.state = .connected → peerIsAlive p now peerTimeoutMs) :
    SameRoutes s.table (rebuildRoutingTable s.topology s.advertisements now) := by
  obtain ⟨peers, timestamp, hpeers, hconnected, hlive, htable⟩ := h
  have hview : SameView peers timestamp s.topology now := by
    refine ⟨fun id => ⟨fun hid => ?_, hlive id⟩, hconnected⟩
    have hconn : isConnected s.topology id = true := by
      rw [← hconnected]
      exact IsLive.isConnected hid
    obtain ⟨p, hp, hpid, hstate⟩ := isConnected_iff.mp hconn
    exact ⟨p, hp, hpid, halive p hp hstate⟩
  exact htable.trans (rebuild_sameRoutes hpeers.toPeersValid hsound.topology.toPeersValid
    hsound.advertisements hsound.advertisements hsound.distinct hsound.distinct
    (hfits.fits hconnected timestamp) (hfits.fits (fun _ => rfl) now)
    fun dest => hview.offersFor s.advertisements dest)

/-- A peer is heard of that was alive already, or that has its route. -/
theorem Synced.heard (h : Synced network s now) (hsound : RoutingSound network s now)
    (hmarks : ∀ p, topologyFindPeer s.topology id = some p →
      IsLive s.topology id now ∨ isConnected s.topology id ∧ HasDirectRoute s.table id) :
    Synced network { s with topology := s.topology.map (changeAt id (Peer.heard now)) } now := by
  obtain ⟨peers, timestamp, hpeers, hconnected, hlive, htable⟩ := h
  have hid : ∀ p : Peer, (p.heard now).id = p.id := fun _ => rfl
  have hdistinct := hsound.topology.distinct
  refine ⟨peers, timestamp, hpeers, fun other => ?_, fun other hother => ?_, htable⟩
  · show isConnected peers other = isConnected (s.topology.map (changeAt id (Peer.heard now))) other
    rw [hconnected, isConnected_changeAt hdistinct hid, isConnected_eq_any hdistinct]
    by_cases hsame : other = id
    · cases hfind : topologyFindPeer s.topology other with
      | none => rfl
      | some p =>
          have hstate : isConnected s.topology id = true := by
            rw [hsame] at hfind
            exact (hmarks p hfind).elim IsLive.isConnected And.left
          rw [← hsame, isConnected_eq_any hdistinct, hfind] at hstate
          rw [hstate]
          simp [hsame, Peer.heard]
    · simp [hsame]
  · have hother' := (isLive_changeAt hdistinct hid).mp hother
    obtain ⟨p, hfind, halive⟩ := hother'
    by_cases hsame : other = id
    · subst hsame
      rcases hmarks p hfind with hwas | ⟨-, hdirect⟩
      · exact hlive other hwas
      · exact isLive_of_hasDirectRoute hpeers hsound.advertisements.adsNamed
          (htable.hasDirectRoute hdirect)
    · rw [if_neg hsame] at halive
      exact hlive other ((isLive_iff hdistinct).mpr ⟨p, hfind, halive⟩)

/-- An advertisement that changes no route. -/
theorem Synced.advertised (h : Synced network s now) (hsound : RoutingSound network s now)
    {sender : NodeId} {stored : StoredRouteAdvertisement} {origins : RouteOriginStates}
    (hfits : FitsTable s.topology s.advertisements)
    (hfits' : FitsTable s.topology (s.advertisements.insert sender stored))
    (hads' : AdsValid network (s.advertisements.insert sender stored))
    (hdistinct' : AdsDistinct (s.advertisements.insert sender stored))
    (hunchanged : (applyRoutes s.table sender stored.advertisement now 1).2 = false) :
    Synced network
      { s with
        table := (applyRoutes s.table sender stored.advertisement now 1).1
        origins := origins
        advertisements := s.advertisements.insert sender stored } now := by
  obtain ⟨peers, timestamp, hpeers, hconnected, hlive, htable⟩ := h
  refine ⟨peers, timestamp, hpeers, hconnected, hlive, ?_⟩
  have hfits₀ := hfits.fits hconnected timestamp
  have hfits₁ := hfits'.fits hconnected timestamp
  cases hneighbor : isConnected peers sender with
  | true =>
      exact applyRoutes_unchanged_sameRoutes hpeers.toPeersValid hpeers.toPeersValid
        ⟨fun _ => Iff.rfl, fun _ => rfl⟩ hsound.advertisements (hsound.distinct sender) hfits₀ htable
        hneighbor hads' hfits₁ hunchanged
  | false =>
      -- the advertisement waits until its sender is connected
      have hnamed := (hads'.adsNamed sender stored (AList.lookup_insert _)).2
      have htablesound := htable.tableSound
        (rebuild_find hpeers.toPeersSound hsound.advertisements.adsNamed hfits₀ (zero 32)).1
      have huntimed : SameRoutes (applyRoutes s.table sender stored.advertisement now 1).1
          s.table := .of_eq (applyRoutes_unchanged htablesound hnamed hunchanged).1
      refine (huntimed.trans htable).trans ?_
      exact rebuild_sameRoutes hpeers.toPeersValid hpeers.toPeersValid hsound.advertisements hads'
        hsound.distinct hdistinct' hfits₀ hfits₁ fun dest => (offersFor_insert hneighbor dest).symm

end

/-! ## What a block leaves -/

section
variable {network : IPv6} {s : RoutingState} {now : Nat} {id : NodeId} {ads : RouteAdvertisements}
  {topo : Topology}

theorem mem_changeAt {change : Peer → Peer} {q : Peer}
    (h : q ∈ topo.map (changeAt id change)) : ∃ p ∈ topo, q = p ∨ q = change p := by
  obtain ⟨p, hp, rfl⟩ := List.mem_map.mp h
  refine ⟨p, hp, ?_⟩
  unfold changeAt
  split
  · exact .inr rfl
  · exact .inl rfl

theorem heartbeatProcessHello_eq {message : HelloMessage}
    (hdistinct : (topo.map Peer.id).Nodup)
    (hnow : (topologyFindPeer topo message.sender).isSome → 0 < now) :
    (heartbeatProcessHello topo message now).2
      = topo.map (changeAt message.sender (Peer.heard now)) := by
  unfold heartbeatProcessHello
  dsimp only
  rw [topologyModify_eq hdistinct]
  cases hfind : topologyFindPeer topo message.sender with
  | none => exact (map_changeAt_absent _ hfind).symm
  | some p =>
      rw [if_pos (hnow (by rw [hfind]; rfl))]
      rfl

theorem lookup_expireAdvertisements {n : NodeId} {stored : StoredRouteAdvertisement}
    (h : (expireAdvertisements ads now).lookup n = some stored) : ads.lookup n = some stored := by
  exact AList.mem_lookup_iff.mpr (List.mem_of_mem_filter (AList.mem_lookup_iff.mp h))

theorem expireAdvertisements_same (h : (ads.entries.any fun entry => isExpired now entry.2) = false) :
    expireAdvertisements ads now = ads := by
  refine AList.ext (List.filter_eq_self.mpr fun entry hentry => ?_)
  rw [List.any_eq_false] at h
  simpa using h entry hentry

theorem topologyPruneStale_same {timeoutMs : Nat}
    (h : (topologyPruneStale topo now timeoutMs).2 = 0) :
    (topologyPruneStale topo now timeoutMs).1 = topo := by
  have hnone := List.countP_eq_zero.mp h
  refine (List.map_congr_left fun p hp => ?_).trans (List.map_id topo)
  rw [if_neg (by simpa using hnone p hp)]
  rfl

/-- Fewer advertisements are as good. -/
theorem RoutingSound.fewer (h : RoutingSound network s now)
    (hads : ∀ n stored, ads.lookup n = some stored → s.advertisements.lookup n = some stored) :
    RoutingSound network { s with advertisements := ads } now :=
  { h with
    advertisements := fun n stored hlookup => h.advertisements n stored (hads n stored hlookup)
    distinct := fun n stored hlookup => h.distinct n stored (hads n stored hlookup) }

theorem RoutingSound.changed {change : Peer → Peer} (h : RoutingSound network s now)
    (hid : ∀ p, (change p).id = p.id)
    (haddress : ∀ p, p.id = id → p.virtualAddress = virtualAddress network p.id →
      (change p).virtualAddress = virtualAddress network p.id)
    (hseen : ∀ p, p.lastSeen ≤ now → (change p).lastSeen ≤ now) :
    RoutingSound network { s with topology := s.topology.map (changeAt id change) } now :=
  { h with
    topology := h.topology.changeAt hid haddress
    seen := by
      intro q hq
      obtain ⟨p, hp, rfl | rfl⟩ := mem_changeAt hq
      · exact h.seen q hp
      · exact hseen p (h.seen p hp) }

theorem RoutingSound.heard (h : RoutingSound network s now) (id : NodeId) :
    RoutingSound network { s with topology := s.topology.map (changeAt id (Peer.heard now)) } now :=
  h.changed (fun _ => rfl) (fun _ _ haddress => haddress) fun _ _ => le_refl now

theorem AdsDistinct.insert {neighbor : NodeId} {stored : StoredRouteAdvertisement}
    (h : AdsDistinct ads)
    (hstored : (stored.advertisement.routes.map Route.destinationNode).Nodup) :
    AdsDistinct (ads.insert neighbor stored) := by
  intro n other hlookup
  by_cases hn : n = neighbor
  · rw [hn, AList.lookup_insert, Option.some.injEq] at hlookup
    rw [← hlookup]
    exact hstored
  · rw [AList.lookup_insert_ne hn] at hlookup
    exact h n other hlookup

/-- An update with the daemon's own origin states is accepted when it is
fresh. -/
theorem distanceVectorUpdate_fresh {sender : NodeId} {advertisement : RouteAdvertisement}
    (h : (distanceVectorUpdate s.table sender advertisement now 1 (some s.origins)).accepted
      = true) : advertisementFresh s.origins advertisement = true := by
  unfold distanceVectorUpdate at h
  split_ifs at h with hrefused
  rw [not_or] at hrefused
  simpa using hrefused.2

theorem execute_sound {owed : Prop} {block : RoutingBlock} (h : RoutingSound network s now)
    (hblock : block.Sound network now) (hkeeps : BlockKeeps s now owed block) :
    RoutingSound network (execute s now block).1 now
      ∧ ∀ next ∈ (execute s now block).2, next.Sound network now := by
  have hdistinct := h.topology.distinct
  cases block with
  | activate contact timestamp =>
      obtain ⟨hnamed, haddress, hpast⟩ := hblock
      cases hactivate : activateBlock s.topology contact timestamp with
      | none =>
          simp only [execute, hactivate]
          exact ⟨h, by simp⟩
      | some topology =>
          simp only [execute, hactivate]
          refine ⟨{ h with
            topology := h.topology.activateBlock hnamed haddress hactivate
            seen := fun q hq => ?_ }, by simp [RoutingBlock.Sound]⟩
          dsimp only at hq
          rcases activateBlock_some hdistinct hactivate with ⟨-, -, rfl⟩ | ⟨-, rfl⟩
          · rcases List.mem_append.mp hq with hq | hq
            · exact h.seen q hq
            · rw [List.mem_singleton.mp hq]
              exact hpast
          · obtain ⟨p, hp, rfl | rfl⟩ := mem_changeAt hq
            · exact h.seen q hp
            · exact hpast
  | mark id =>
      simp only [execute, deactivateBlock_eq hdistinct]
      exact ⟨h.changed (fun _ => rfl) (fun _ _ haddress => haddress) (fun _ hp => hp),
        by simp [RoutingBlock.Sound]⟩
  | drop id =>
      refine ⟨h.fewer fun n stored hlookup => ?_, by simp [execute, RoutingBlock.Sound]⟩
      by_cases hn : n = id
      · rw [hn, AList.lookup_erase] at hlookup
        cases hlookup
      · rwa [AList.lookup_erase_ne hn] at hlookup
  | touch id =>
      simp only [execute, touchBlock_eq hdistinct]
      refine ⟨h.heard id, ?_⟩
      split_ifs <;> simp [RoutingBlock.Sound]
  | hello message =>
      have hnow : (topologyFindPeer s.topology message.sender).isSome → 0 < now :=
        fun hsome => (hkeeps hsome).1
      simp only [execute, heartbeatProcessHello_eq hdistinct hnow]
      exact ⟨h.heard message.sender, by simp⟩
  | advertise sender advertisement =>
      obtain ⟨hsender, hvalid⟩ := hblock
      simp only [execute]
      split
      · exact ⟨h, by simp⟩
      · next haccepted =>
          rw [Bool.not_eq_true', Bool.not_eq_false] at haccepted
          have honce := hkeeps (distanceVectorUpdate_fresh haccepted)
          refine ⟨{ h with
            advertisements := h.advertisements.insert hsender hvalid
            distinct := h.distinct.insert honce }, ?_⟩
          split <;> simp [RoutingBlock.Sound]
  | prune started =>
      refine ⟨{ h with topology := h.topology.map ?_ ?_, seen := ?_ },
        by simp [execute, RoutingBlock.Sound]⟩
      · intro p
        split <;> rfl
      · intro p haddress
        split <;> exact haddress
      · intro q hq
        obtain ⟨p, hp, rfl⟩ := List.mem_map.mp hq
        have hseen := h.seen p hp
        split <;> exact hseen
  | expire started topologyChanged =>
      refine ⟨h.fewer fun n stored hlookup => lookup_expireAdvertisements hlookup, ?_⟩
      simp only [execute]
      split <;> simp [RoutingBlock.Sound]
  | copy => exact ⟨h, by simpa [execute, RoutingBlock.Sound] using h.topology⟩
  | install peers => exact ⟨{ h with }, by simp [execute]⟩

/-- No block leaves the table behind unless a rebuild is still to come. -/
theorem execute_synced {owed : Prop} {block : RoutingBlock} (h : RoutingSound network s now)
    (hblock : block.Sound network now) (hkeeps : BlockKeeps s now owed block)
    (hfits : FitsTable s.topology s.advertisements)
    (hfits' : FitsTable (execute s now block).1.topology (execute s now block).1.advertisements)
    (hbefore : owed ∨ block.owes = true ∨ Synced network s now) :
    owed ∨ (∃ next ∈ (execute s now block).2, next.owes = true)
      ∨ Synced network (execute s now block).1 now := by
  have hdistinct := h.topology.distinct
  rcases hbefore with howed | hbefore
  · exact .inl howed
  have hsynced : block.owes = false → Synced network s now := fun hno =>
    hbefore.resolve_left (by simp [hno])
  cases block with
  | activate contact timestamp =>
      cases hactivate : activateBlock s.topology contact timestamp with
      | none =>
          simp only [execute, hactivate]
          exact .inr (.inr (hsynced rfl))
      | some topology =>
          simp only [execute, hactivate]
          exact .inr (.inl ⟨.copy, List.mem_singleton_self _, rfl⟩)
  | mark id => exact .inr (.inl ⟨.drop id, List.mem_singleton_self _, rfl⟩)
  | drop id => exact .inr (.inl ⟨.copy, List.mem_singleton_self _, rfl⟩)
  | touch id =>
      simp only [execute, touchBlock_eq hdistinct]
      split
      · exact .inr (.inl ⟨.copy, List.mem_singleton_self _, rfl⟩)
      · next hstate =>
          -- the peer was connected: only the time of its last word changes
          have hconnected : ∀ p, topologyFindPeer s.topology id = some p →
              isConnected s.topology id = true := by
            intro p hfind
            rw [isConnected_eq_any hdistinct, hfind]
            simpa [hfind] using hstate
          by_cases howed : owed
          · exact .inl howed
          refine .inr (.inr ((hsynced rfl).heard h fun p hfind => ?_))
          have hconn := hconnected p hfind
          by_cases hlive : IsLive s.topology id now
          · exact .inl hlive
          · exact .inr ⟨hconn, (hkeeps hconn hlive).resolve_left howed⟩
  | hello message =>
      have hnow : (topologyFindPeer s.topology message.sender).isSome → 0 < now :=
        fun hsome => (hkeeps hsome).1
      simp only [execute, heartbeatProcessHello_eq hdistinct hnow]
      by_cases howed : owed
      · exact .inl howed
      refine .inr (.inr ((hsynced rfl).heard h fun p hfind => ?_))
      have hsome : (topologyFindPeer s.topology message.sender).isSome := by rw [hfind]; rfl
      exact (hkeeps hsome).2.imp_right fun hrest => hrest.resolve_left howed
  | advertise sender advertisement =>
      obtain ⟨hsender, hvalid⟩ := hblock
      simp only [execute] at hfits' ⊢
      split
      · exact .inr (.inr (hsynced rfl))
      · next haccepted =>
          rw [if_neg haccepted] at hfits'
          rw [Bool.not_eq_true', Bool.not_eq_false] at haccepted
          obtain ⟨-, htable, hchanged⟩ := distanceVectorUpdate_accepted haccepted
          split
          · exact .inr (.inl ⟨.copy, List.mem_singleton_self _, rfl⟩)
          · next hunchanged =>
              rw [hchanged, Bool.not_eq_true] at hunchanged
              have honce := hkeeps (distanceVectorUpdate_fresh haccepted)
              rw [htable]
              exact .inr (.inr ((hsynced rfl).advertised h hfits hfits'
                (h.advertisements.insert hsender hvalid) (h.distinct.insert honce) hunchanged))
  | prune started =>
      simp only [execute]
      by_cases hpruned : (topologyPruneStale s.topology started peerTimeoutMs).2 = 0
      · rw [topologyPruneStale_same hpruned]
        exact .inr (.inr (hsynced rfl))
      · refine .inr (.inl ⟨_, List.mem_singleton_self _, ?_⟩)
        simpa [RoutingBlock.owes] using hpruned
  | expire started topologyChanged =>
      simp only [execute]
      split
      · exact .inr (.inl ⟨.copy, List.mem_singleton_self _, rfl⟩)
      · next hsame =>
          rw [Bool.not_eq_true, Bool.or_eq_false_iff] at hsame
          obtain ⟨htopology, hexpired⟩ := hsame
          rw [expireAdvertisements_same hexpired]
          exact .inr (.inr (hsynced htopology))
  | copy => exact .inr (.inl ⟨.install s.topology, List.mem_singleton_self _, rfl⟩)
  | install peers =>
      refine hkeeps.imp_right fun hsame => .inr ?_
      exact ⟨peers, now, hblock, hsame.1, hsame.2, .refl _⟩

end

/-! ## Threads -/

section
variable {threads : List (List RoutingBlock)} {i : Nat} {old new : List RoutingBlock}

theorem threads_split (h : threads[i]? = some old) :
    ∃ before after, threads = before ++ old :: after
      ∧ ∀ new, threads.set i new = before ++ new :: after := by
  obtain ⟨hlt, rfl⟩ := List.getElem?_eq_some_iff.mp h
  refine ⟨threads.take i, threads.drop (i + 1), ?_, fun new => List.set_eq_take_cons_drop new hlt⟩
  rw [List.getElem_cons_drop, List.take_append_drop]

theorem rebuildOwed_middle {before after : List (List RoutingBlock)} :
    RebuildOwed (before ++ new :: after)
      ↔ (∃ block ∈ new, block.owes = true) ∨ RebuildOwed (before ++ after) := by
  simp only [RebuildOwed, List.mem_append, List.mem_cons, or_and_right, exists_or,
    exists_eq_left]
  exact or_left_comm

/-- One thread takes its next block. -/
theorem rebuildOwed_next {block : RoutingBlock} {rest : List RoutingBlock}
    (h : threads[i]? = some (block :: rest)) :
    (RebuildOwed threads ↔ block.owes = true ∨ RebuildOwed (threads.set i rest))
      ∧ ∀ more, RebuildOwed (threads.set i (more ++ rest))
        ↔ (∃ next ∈ more, next.owes = true) ∨ RebuildOwed (threads.set i rest) := by
  obtain ⟨before, after, hthreads, hset⟩ := threads_split h
  constructor
  · rw [hset, hthreads, rebuildOwed_middle, rebuildOwed_middle]
    simp [or_assoc]
  · intro more
    rw [hset, hset, rebuildOwed_middle, rebuildOwed_middle]
    simp only [List.mem_append, or_and_right, exists_or, or_assoc]

theorem mem_threads_next {block : RoutingBlock} {rest more thread : List RoutingBlock}
    (h : threads[i]? = some (block :: rest)) (hthread : thread ∈ threads.set i (more ++ rest))
    {b : RoutingBlock} (hb : b ∈ thread) : b ∈ more ∨ ∃ t ∈ threads, b ∈ t := by
  rcases List.mem_or_eq_of_mem_set hthread with hthread | rfl
  · exact .inr ⟨thread, hthread, hb⟩
  · rcases List.mem_append.mp hb with hb | hb
    · exact .inl hb
    · exact .inr ⟨block :: rest, List.mem_of_getElem? h, List.mem_cons_of_mem block hb⟩

theorem rebuildOwed_start (h : RebuildOwed threads) : RebuildOwed (threads ++ [new]) := by
  obtain ⟨thread, hthread, howes⟩ := h
  exact ⟨thread, List.mem_append_left _ hthread, howes⟩

end

section
variable {network : IPv6} {localId : NodeId} {s : RoutingThreads}

theorem nextBlock_some {i : Nat} {block : RoutingBlock} {rest : List RoutingBlock}
    (h : s.nextBlock i = some (block, rest)) : s.threads[i]? = some (block :: rest) := by
  unfold RoutingThreads.nextBlock at h
  split at h
  · next hthread =>
      cases h
      exact hthread
  · cases h

/-- What the checks before the first block leave. -/
theorem blocks_sound (operation : RoutingOperation) (now : Nat) {block : RoutingBlock}
    (h : block ∈ operation.blocks network localId now) : block.Sound network now := by
  cases operation with
  | activate trust contact =>
      simp only [RoutingOperation.blocks] at h
      split at h
      · next hmay =>
          obtain ⟨hnamed, -, -, haddress⟩ := mayActivate_iff.mp hmay
          rw [List.mem_singleton.mp h]
          exact ⟨hnamed, haddress, le_rfl⟩
      · cases h
  | deactivate id =>
      rw [List.mem_singleton.mp h]
      trivial
  | frame sender =>
      rw [List.mem_singleton.mp h]
      trivial
  | hello sender message =>
      simp only [RoutingOperation.blocks] at h
      split at h
      · rw [List.mem_singleton.mp h]
        trivial
      · rcases List.mem_pair.mp h with rfl | rfl <;> trivial
  | advertise sender advertisement =>
      simp only [RoutingOperation.blocks] at h
      split at h
      · rw [List.mem_singleton.mp h]
        trivial
      · next hsender =>
          split at h
          · rw [List.mem_singleton.mp h]
            trivial
          · next hvalid =>
              rcases List.mem_pair.mp h with rfl | rfl
              · trivial
              · exact ⟨not_not.mp hsender, hvalid⟩
  | prune =>
      rw [List.mem_singleton.mp h]
      trivial

/-! ## Runs -/

/-- What holds at every moment of a run. -/
structure RoutingInv (network : IPv6) (s : RoutingThreads) : Prop where
  sound : RoutingSound network s.toRoutingState s.clock
  blocks : ∀ thread ∈ s.threads, ∀ block ∈ thread, block.Sound network s.clock
  upToDate : RebuildOwed s.threads ∨ Synced network s.toRoutingState s.clock

theorem startRouting_inv (network : IPv6) (clock : Nat) :
    RoutingInv network (startRouting clock) where
  sound :=
    { topology := topologySound_nil network
      seen := by simp [startRouting]
      advertisements := by simp [startRouting, AdsValid]
      distinct := by simp [startRouting, AdsDistinct] }
  blocks := by simp [startRouting]
  upToDate := .inr ⟨[], clock, topologySound_nil network, fun _ => rfl, fun _ hid => hid,
    .refl _⟩

/-- Time passes. -/
theorem RoutingInv.later (h : RoutingInv network s) {now : Nat} (hle : s.clock ≤ now) :
    RoutingInv network { s with clock := now } where
  sound := h.sound.later hle
  blocks thread hthread block hblock := (h.blocks thread hthread block hblock).later hle
  upToDate := h.upToDate.imp_right fun hsynced => hsynced.later h.sound hle

theorem routingStep_inv (h : RoutingInv network s) {input : RoutingInput}
    (hkeeps : KeepsInSync s input) (hfits : FitsTable s.topology s.advertisements)
    (hfits' : FitsTable (routingStep network localId s input).topology
      (routingStep network localId s input).advertisements) :
    RoutingInv network (routingStep network localId s input) := by
  cases input with
  | start elapsed operation =>
      have hlater := h.later (Nat.le_add_right s.clock elapsed)
      refine ⟨hlater.sound, fun thread hthread block hblock => ?_,
        hlater.upToDate.imp_left rebuildOwed_start⟩
      rcases List.mem_append.mp hthread with hthread | hthread
      · exact hlater.blocks thread hthread block hblock
      · rw [List.mem_singleton.mp hthread] at hblock
        exact blocks_sound operation _ hblock
  | run elapsed i =>
      have hlater := h.later (Nat.le_add_right s.clock elapsed)
      cases hnext : s.nextBlock i with
      | none =>
          simp only [routingStep, hnext, RoutingInput.elapsed]
          exact hlater
      | some next =>
          obtain ⟨block, rest⟩ := next
          simp only [KeepsInSync, hnext] at hkeeps
          simp only [routingStep, hnext, RoutingInput.elapsed] at hfits' ⊢
          have hthread := nextBlock_some hnext
          have hblock := hlater.blocks _ (List.mem_of_getElem? hthread) block List.mem_cons_self
          obtain ⟨hsound, hmore⟩ := execute_sound hlater.sound hblock hkeeps
          refine ⟨hsound, fun thread hmem b hb => ?_, ?_⟩
          · rcases mem_threads_next hthread hmem hb with hb | ⟨t, ht, hb⟩
            · exact hmore b hb
            · exact hlater.blocks t ht b hb
          · have hbefore := hlater.upToDate
            rw [(rebuildOwed_next hthread).1, or_assoc, or_left_comm] at hbefore
            have hafter := execute_synced hlater.sound hblock hkeeps hfits hfits' hbefore
            rw [or_left_comm, ← or_assoc, ← (rebuildOwed_next hthread).2 _] at hafter
            exact hafter

theorem RoutingInv.inSync (h : RoutingInv network s)
    (hfits : FitsTable s.topology s.advertisements) : InSync s := by
  intro hquiet now hnow halive
  have hnone : ¬ RebuildOwed s.threads := by
    rintro ⟨thread, hthread, block, hblock, -⟩
    rw [hquiet thread hthread] at hblock
    cases hblock
  have hlater := h.later hnow
  exact (hlater.upToDate.resolve_left hnone).inSync hlater.sound hfits halive

/-- When every step keeps the table in step, it is what a rebuild would
compute whenever nothing is in progress. -/
theorem routing_inSync (clock : Nat) {inputs : List RoutingInput}
    (hfits : Run.Throughout (routingStep network localId)
      (fun s => FitsTable s.topology s.advertisements) (startRouting clock) inputs)
    (hkeeps : Run.Along (routingStep network localId) KeepsInSync (startRouting clock) inputs) :
    Run.Throughout (routingStep network localId) InSync (startRouting clock) inputs := by
  have hsteps := Run.along_and.mpr ⟨hkeeps, Run.along_and.mpr
    ⟨Run.along_of_throughout (P := fun s _ => FitsTable s.topology s.advertisements)
      (fun _ _ h => h) hfits, hfits.2⟩⟩
  have hinv := Run.throughout_of_along
    (fun s i hinv hstep => ⟨routingStep_inv hinv.1 hstep.1 hstep.2.1 hstep.2.2, hstep.2.2⟩)
    (I := fun s => RoutingInv network s ∧ FitsTable s.topology s.advertisements)
    ⟨startRouting_inv network clock, hfits.1⟩ hsteps
  exact hinv.mono fun s h => h.1.inSync h.2

end

/-! ## Two neighbours -/

def twoPeersTrust : TrustState where
  directory := trustDirectory (ascii "identity")
  peers := [numberedPeer 2, numberedPeer 1]

def peerJoins (n : UInt8) : RoutingInput :=
  .start 0 (.activate twoPeersTrust (trustedContact sampleNetwork (numberedPeer n)))

/-- The second neighbour joins when the first is done. -/
def joinInTurn : List RoutingInput :=
  peerJoins 1 :: List.replicate 3 (.run 1 0) ++ peerJoins 2 :: List.replicate 3 (.run 1 1)

/-- The first has copied the topology before the second joins, and installs
its copy when the second is done. -/
def joinAtOnce : List RoutingInput :=
  peerJoins 1 :: peerJoins 2 :: List.replicate 2 (.run 1 0) ++ List.replicate 3 (.run 1 1)
    ++ [.run 1 0]

/-- Two neighbours and no advertisements. -/
theorem fitsTable_twoPeers {peers : List Peer} {ads : RouteAdvertisements}
    (h : (∀ p ∈ peers, p.id ∈ [(numberedPeer 1).id, (numberedPeer 2).id]) ∧ ads.keys = []) :
    FitsTable peers ads := by
  refine ⟨[(numberedPeer 1).id, (numberedPeer 2).id].toFinset, ?_, fun id hid => ?_, ?_⟩
  · exact (List.toFinset_card_le _).trans (by decide)
  · obtain ⟨p, hp, rfl, -⟩ := isConnected_iff.mp hid
    exact List.mem_toFinset.mpr (h.1 p hp)
  · intro n stored a _ hlookup
    have hn : n ∈ ads.keys := AList.mem_keys.mpr (AList.lookup_isSome.mp (by rw [hlookup]; rfl))
    rw [h.2] at hn
    cases hn

theorem fitsTable_joins {inputs : List RoutingInput}
    (h : Run.Along (routingStep sampleNetwork sampleInviter)
      (fun s i => (∀ p ∈ (routingStep sampleNetwork sampleInviter s i).topology,
          p.id ∈ [(numberedPeer 1).id, (numberedPeer 2).id])
        ∧ (routingStep sampleNetwork sampleInviter s i).advertisements.keys = [])
      (startRouting 1000) inputs) :
    Run.Throughout (routingStep sampleNetwork sampleInviter)
      (fun s => FitsTable s.topology s.advertisements) (startRouting 1000) inputs :=
  ⟨fitsTable_twoPeers ⟨by simp [startRouting], rfl⟩, h.mono fun _ _ => fitsTable_twoPeers⟩

theorem keepsInSync_install {s : RoutingThreads} {elapsed i : Nat}
    (h : s.nextBlock i = some (.install s.topology, [])) : KeepsInSync s (.run elapsed i) := by
  simp only [KeepsInSync, h]
  exact .inr ⟨fun _ => rfl, fun _ h => h⟩

theorem routing_inSync_joinInTurn :
    Run.Throughout (routingStep sampleNetwork sampleInviter) InSync (startRouting 1000)
      joinInTurn := by
  refine routing_inSync 1000 (fitsTable_joins (by decide)) ?_
  exact ⟨trivial, trivial, trivial, keepsInSync_install (by decide), trivial,
    trivial, trivial, keepsInSync_install (by decide), trivial⟩

theorem routing_outOfSync :
    ¬ ∀ (network : IPv6) (localId : NodeId) (clock : Nat) (inputs : List RoutingInput),
      Run.Throughout (routingStep network localId)
        (fun s => FitsTable s.topology s.advertisements) (startRouting clock) inputs →
      Run.Throughout (routingStep network localId) InSync (startRouting clock) inputs := by
  intro h
  have hsync := (h sampleNetwork sampleInviter 1000 joinAtOnce
    (fitsTable_joins (by decide))).final
  generalize hend : Run.final (routingStep sampleNetwork sampleInviter) (startRouting 1000)
    joinAtOnce = s at hsync
  have hended : (∀ thread ∈ s.threads, thread = [])
      ∧ (∀ p ∈ s.topology, p.state = .connected → peerIsAlive p s.clock peerTimeoutMs)
      ∧ HasDirectRoute (rebuildRoutingTable s.topology s.advertisements s.clock)
        (numberedPeer 2).id
      ∧ ¬ HasDirectRoute s.table (numberedPeer 2).id := by
    rw [← hend]
    decide
  obtain ⟨hquiet, halive, hrebuilt, hmissing⟩ := hended
  have hsame := hsync hquiet s.clock le_rfl halive
  exact hmissing (hsame.symm.hasDirectRoute hrebuilt)

end Madoka

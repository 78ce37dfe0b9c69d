import Madoka.Daemon.FastPath
import Madoka.Daemon.PeerBlocks
import Madoka.Lib.Run

/-!
# Routing Threads

The operations on the routing state, each locked block a step, by any number
of threads in any order (`activate_neighbor`, `deactivate_neighbor`,
`touch_neighbor`, the HELLO and ROUTE_ADVERTISEMENT handlers of `run_session`,
the prune and the expiry of `routing_loop`, and the two blocks of
`rebuild_routing_table` in `core/daemon.cpp`).
-/

namespace Madoka

open Octets DistanceVector

def routeAdvertisementTimeoutMs : Nat := 6000

/-! ## Blocks -/

/-- A locked block, with what its thread has read before it. -/
inductive RoutingBlock where
  | activate (contact : NodeContact) (timestamp : Nat)
  | mark (id : NodeId)
  | drop (id : NodeId)
  | touch (id : NodeId)
  | hello (message : HelloMessage)
  | advertise (sender : NodeId) (advertisement : RouteAdvertisement)
  | prune (now : Nat)
  | expire (now : Nat) (topologyChanged : Bool)
  | copy
  | install (peers : List Peer)
deriving DecidableEq

structure RoutingState where
  topology : Topology
  advertisements : RouteAdvertisements
  origins : RouteOriginStates
  table : RouteTable

/-- A stored advertisement is out of date. -/
def isExpired (now : Nat) (stored : StoredRouteAdvertisement) : Bool :=
  now > stored.receivedAtMs ∧ now - stored.receivedAtMs ≥ routeAdvertisementTimeoutMs

def expireAdvertisements (ads : RouteAdvertisements) (now : Nat) : RouteAdvertisements :=
  ⟨ads.entries.filter fun entry => !isExpired now entry.2,
    ads.nodupKeys.sublist List.filter_sublist⟩

/-- What a block makes of the state at a time, and the blocks its thread goes
on with: `rebuild_routing_table` is a copy and then an install. -/
def execute (s : RoutingState) (now : Nat) : RoutingBlock → RoutingState × List RoutingBlock
  | .activate contact timestamp =>
      match activateBlock s.topology contact timestamp with
      | none => (s, [])
      | some topology => ({ s with topology := topology }, [.copy])
  | .mark id => ({ s with topology := deactivateBlock s.topology id }, [.drop id])
  | .drop id => ({ s with advertisements := s.advertisements.erase id }, [.copy])
  | .touch id =>
      let (topology, becameConnected) := touchBlock s.topology id now
      ({ s with topology := topology }, if becameConnected then [.copy] else [])
  | .hello message => ({ s with topology := (heartbeatProcessHello s.topology message now).2 }, [])
  | .advertise sender advertisement =>
      let update := distanceVectorUpdate s.table sender advertisement now 1 (some s.origins)
      if !update.accepted then (s, [])
      else
        ({ s with
            table := update.table
            origins := update.originStates.getD s.origins
            advertisements := s.advertisements.insert sender
              { advertisement := advertisement, receivedAtMs := now } },
          if update.routesChanged then [.copy] else [])
  | .prune started =>
      let (topology, pruned) := topologyPruneStale s.topology started peerTimeoutMs
      ({ s with topology := topology }, [.expire started (pruned ≠ 0)])
  | .expire started topologyChanged =>
      let expired := s.advertisements.entries.any fun entry => isExpired started entry.2
      ({ s with advertisements := expireAdvertisements s.advertisements started },
        if topologyChanged || expired then [.copy] else [])
  | .copy => (s, [.install s.topology])
  | .install peers => ({ s with table := rebuildRoutingTable peers s.advertisements now }, [])

/-! ## Threads -/

/-- The operations. A frame of a session that is neither a HELLO nor a
ROUTE_ADVERTISEMENT only touches its sender; `deactivate_neighbor` has found no other session of the
peer, and the trust store is what `activate_neighbor` finds. -/
inductive RoutingOperation where
  | activate (trust : TrustState) (contact : NodeContact)
  | deactivate (id : NodeId)
  | frame (sender : NodeId)
  | hello (sender : NodeId) (message : HelloMessage)
  | advertise (sender : NodeId) (advertisement : RouteAdvertisement)
  | prune

/-- Each thread is the blocks it has still to take. -/
structure RoutingThreads extends RoutingState where
  clock : Nat
  threads : List (List RoutingBlock)

/-- Some time passes, and then an operation starts or a thread takes its next
block. -/
inductive RoutingInput where
  | start (elapsed : Nat) (operation : RoutingOperation)
  | run (elapsed : Nat) (thread : Nat)

variable (network : IPv6) (localId : NodeId)

/-- The blocks of an operation, past its checks. Every frame of a session
touches its sender first. -/
def RoutingOperation.blocks (operation : RoutingOperation) (now : Nat) : List RoutingBlock :=
  match operation with
  | .activate trust contact =>
      if mayActivate network localId trust contact then [.activate contact now] else []
  | .deactivate id => [.mark id]
  | .frame sender => [.touch sender]
  | .hello sender message =>
      if message.sender ≠ sender then [.touch sender] else [.touch sender, .hello message]
  | .advertise sender advertisement =>
      if advertisement.sender ≠ sender then [.touch sender]
      else
        match validateRouteAdvertisement advertisement network with
        | .error _ => [.touch sender]
        | .ok () => [.touch sender, .advertise sender advertisement]
  | .prune => [.prune now]

def RoutingInput.elapsed : RoutingInput → Nat
  | .start elapsed _ => elapsed
  | .run elapsed _ => elapsed

/-- The next block of a thread, and the rest of it. -/
def RoutingThreads.nextBlock (s : RoutingThreads) (thread : Nat) :
    Option (RoutingBlock × List RoutingBlock) :=
  match s.threads[thread]? with
  | some (block :: rest) => some (block, rest)
  | _ => none

def routingStep (s : RoutingThreads) (input : RoutingInput) : RoutingThreads :=
  let now := s.clock + input.elapsed
  match input with
  | .start _ operation =>
      { s with clock := now, threads := s.threads ++ [operation.blocks network localId now] }
  | .run _ thread =>
      match s.nextBlock thread with
      | none => { s with clock := now }
      | some (block, rest) =>
          let (after, more) := execute s.toRoutingState now block
          { toRoutingState := after
            clock := now
            threads := s.threads.set thread (more ++ rest) }

/-- A node that has just started. -/
def startRouting (clock : Nat) : RoutingThreads where
  topology := []
  advertisements := ∅
  origins := ∅
  table := []
  clock := clock
  threads := []

/-! ## What is claimed of it -/

def RoutingThreads.Quiescent (s : RoutingThreads) : Prop := ∀ thread ∈ s.threads, thread = []

/-- When nothing is in progress and every connected peer is alive, the table is
the one that a rebuild would compute. -/
def InSync (s : RoutingThreads) : Prop :=
  s.Quiescent → ∀ now, s.clock ≤ now →
    (∀ p ∈ s.topology, p.state = .connected → peerIsAlive p now peerTimeoutMs) →
    SameRoutes s.table (rebuildRoutingTable s.topology s.advertisements now)

/-- All destinations that the connected peers bring fit in the table. -/
def FitsTable (peers : List Peer) (ads : RouteAdvertisements) : Prop :=
  ∃ destinations : Finset NodeId, destinations.card ≤ maxRouteTableEntries
    ∧ (∀ id, isConnected peers id → id ∈ destinations)
    ∧ ∀ n stored a, isConnected peers n → ads.lookup n = some stored →
      a ∈ stored.advertisement.routes → a.destinationNode ≠ n →
      1 + a.metric < routeMetricInfinity → a.destinationNode ∈ destinations

/-! ## What may go wrong -/

/-- Behind this block of a thread there is always a rebuild. -/
def RoutingBlock.owes : RoutingBlock → Bool
  | .mark _ | .drop _ | .copy | .install _ => true
  | .expire _ topologyChanged => topologyChanged
  | _ => false

/-- A rebuild is still to come. -/
def RebuildOwed (threads : List (List RoutingBlock)) : Prop :=
  ∃ thread ∈ threads, ∃ block ∈ thread, block.owes = true

/-- Where no other rebuild is to come, a block must not make alive a peer that
the table leaves out, and an install must know the peers as they are. Besides,
an advertisement names each destination once, and the clock is not zero when a
HELLO is handled. -/
def BlockKeeps (s : RoutingState) (now : Nat) (owed : Prop) : RoutingBlock → Prop
  | .touch id =>
      isConnected s.topology id → ¬ IsLive s.topology id now → owed ∨ HasDirectRoute s.table id
  | .hello message =>
      (topologyFindPeer s.topology message.sender).isSome →
        0 < now ∧ (IsLive s.topology message.sender now ∨ owed
          ∨ isConnected s.topology message.sender ∧ HasDirectRoute s.table message.sender)
  | .advertise _ advertisement =>
      advertisementFresh s.origins advertisement →
        (advertisement.routes.map Route.destinationNode).Nodup
  | .install peers =>
      owed ∨ (∀ id, isConnected peers id = isConnected s.topology id)
        ∧ ∀ id, IsLive s.topology id now → IsLive peers id now
  | _ => True

def KeepsInSync (s : RoutingThreads) : RoutingInput → Prop
  | .start _ _ => True
  | .run elapsed thread =>
      match s.nextBlock thread with
      | none => True
      | some (block, rest) =>
          BlockKeeps s.toRoutingState (s.clock + elapsed)
            (RebuildOwed (s.threads.set thread rest)) block

end Madoka

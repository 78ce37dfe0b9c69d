import Madoka.Lib.DistanceVector
import Madoka.Lib.FirstMatch
import Madoka.Network.Messages

/-!
# Routing

The route table (`network/routing.cpp`), its update from a neighbour's
advertisement (`network/distance_vector.cpp`) and the advertisements
themselves (`network/route_advertisement.cpp`).
-/

namespace Madoka

open Octets DistanceVector

abbrev RouteTable := List Route

def routeCreate (destination : IPv6) (nextHop : NodeId) (metric lastUpdate : Nat)
    (destinationNode : NodeId) : Route :=
  { destination, destinationNode, nextHop, metric, lastUpdate }

def routingInit : RouteTable := []

def routingFindRoute (table : RouteTable) (destination : NodeId) : Option Route :=
  table.find? fun r => r.destinationNode = destination

def routingFindRouteByAddress (table : RouteTable) (destination : IPv6) : Option Route :=
  table.find? fun r => r.destination = destination

/-- Two routes are for one destination when their nodes agree, or, where one
has no node, their addresses. -/
def sameDestination (left right : Route) : Bool :=
  if left.destinationNode ≠ zero 32 ∧ right.destinationNode ≠ zero 32 then
    left.destinationNode = right.destinationNode
  else left.destination = right.destination

/-- A lower metric wins, and of equal ones the lower next hop. -/
def routingAddRoute (table : RouteTable) (route : Route) : Bool × RouteTable :=
  match FirstMatch.update (fun existing => sameDestination route existing)
      (fun existing =>
        let better := route.metric < existing.metric
        let equalButDeterministic :=
          route.metric = existing.metric ∧ route.nextHop < existing.nextHop
        if better ∨ equalButDeterministic then (route, true) else (existing, false)) table with
  | some (table, added) => (added, table)
  | none =>
      if table.length ≥ maxRouteTableEntries then (false, table) else (true, table ++ [route])

/-! ## Updates -/

/-- A route through the neighbour that the neighbour no longer advertises. -/
def withdrawn (neighbor : NodeId) (advertisement : RouteAdvertisement) (route : Route) : Bool :=
  if route.nextHop ≠ neighbor ∨ route.destinationNode = neighbor then false
  else !advertisement.routes.any fun advertised => sameDestination route advertised

/-- What an unreachable destination does to the route there is. -/
def poisonRoute (neighbor : NodeId) (currentTime : Nat) (existing : Route) : Route × Bool :=
  if existing.nextHop = neighbor ∧ existing.metric ≠ routeMetricInfinity then
    ({ existing with metric := routeMetricInfinity, lastUpdate := currentTime }, true)
  else (existing, false)

/-- What a candidate does to the route there is. -/
def replaceRoute (neighbor : NodeId) (currentTime : Nat) (candidate existing : Route) :
    Route × Bool :=
  let betterMetric := candidate.metric < existing.metric
  let deterministicTie := candidate.metric = existing.metric ∧ neighbor < existing.nextHop
  let refreshSameNeighbor := existing.nextHop = neighbor
  if betterMetric ∨ deterministicTie ∨ refreshSameNeighbor then
    let routeChanged := existing.destination ≠ candidate.destination
      ∨ existing.destinationNode ≠ candidate.destinationNode
      ∨ existing.nextHop ≠ candidate.nextHop ∨ existing.metric ≠ candidate.metric
    if routeChanged then (candidate, true)
    else if refreshSameNeighbor then ({ existing with lastUpdate := currentTime }, false)
    else (existing, false)
  else (existing, false)

/-- One advertised route: the table after it, and whether it changed. -/
def applyRoute (neighbor : NodeId) (currentTime linkCost : Nat) (table : RouteTable)
    (advertised : Route) : RouteTable × Bool :=
  if advertised.destinationNode = neighbor then (table, false)
  else
    let metric := min routeMetricInfinity (linkCost + advertised.metric)
    if metric ≥ routeMetricInfinity then
      (FirstMatch.update (fun route => sameDestination route advertised)
        (poisonRoute neighbor currentTime) table).getD (table, false)
    else
      let candidate := routeCreate advertised.destination neighbor metric currentTime
        advertised.destinationNode
      match FirstMatch.update (fun route => sameDestination route advertised)
          (replaceRoute neighbor currentTime candidate) table with
      | some result => result
      | none =>
          if table.length < maxRouteTableEntries then (table ++ [candidate], true)
          else (table, false)

/-- The loop over the advertised routes. -/
def applyRouteList (neighbor : NodeId) (currentTime linkCost : Nat) :
    List Route → RouteTable → RouteTable × Bool
  | [], table => (table, false)
  | advertised :: rest, table =>
      let (table, changed) := applyRoute neighbor currentTime linkCost table advertised
      let (table, changedLater) := applyRouteList neighbor currentTime linkCost rest table
      (table, changed || changedLater)

def applyRoutes (table : RouteTable) (neighbor : NodeId) (advertisement : RouteAdvertisement)
    (currentTime linkCost : Nat) : RouteTable × Bool :=
  let kept := table.filter fun route => !withdrawn neighbor advertisement route
  let (table', changed) :=
    applyRouteList neighbor currentTime linkCost advertisement.routes kept
  (table', kept.length ≠ table.length || changed)

structure RouteOriginState where
  generation : UInt64
  sequence : UInt64
deriving DecidableEq

abbrev RouteOriginStates := AList fun _ : NodeId => RouteOriginState

/-- An advertisement is fresh when its generation and sequence number are
above the last ones of its sender. -/
def advertisementFresh (originStates : RouteOriginStates) (advertisement : RouteAdvertisement) :
    Bool :=
  match originStates.lookup advertisement.sender with
  | none => true
  | some last =>
      !(advertisement.generation < last.generation
        ∨ advertisement.generation = last.generation
          ∧ advertisement.sequenceNumber ≤ last.sequence)

/-- What an update returns and leaves. -/
structure UpdateResult where
  accepted : Bool
  table : RouteTable
  originStates : Option RouteOriginStates
  routesChanged : Bool

/-- Without origin states every advertisement counts as fresh. -/
def distanceVectorUpdate (table : RouteTable) (neighbor : NodeId)
    (advertisement : RouteAdvertisement) (currentTime linkCost : Nat)
    (originStates : Option RouteOriginStates) : UpdateResult :=
  if advertisement.sender ≠ neighbor
      ∨ originStates.any (fun states => !advertisementFresh states advertisement) then
    { accepted := false, table := table, originStates := originStates, routesChanged := false }
  else
    let (table, changed) := applyRoutes table neighbor advertisement currentTime linkCost
    { accepted := true
      table := table
      originStates := originStates.map fun states => states.insert advertisement.sender
        { generation := advertisement.generation, sequence := advertisement.sequenceNumber }
      routesChanged := changed }

/-! ## Advertisements -/

inductive SplitHorizonMode where
  | disabled
  | splitHorizon
  | poisonReverse
deriving DecidableEq

/-- The route as it is told to a neighbour, if it is told. -/
def advertisedRoute (targetNeighbor : Option NodeId) (mode : SplitHorizonMode) (r : Route) :
    Option Route :=
  if some r.nextHop = targetNeighbor then
    match mode with
    | .splitHorizon => none
    | .poisonReverse => some { r with metric := routeMetricInfinity }
    | .disabled => some r
  else some r

def routeCreateAdvertisement (sender : NodeId) (table : RouteTable) (sequenceNumber : UInt64)
    (targetNeighbor : Option NodeId) (mode : SplitHorizonMode) (generation : UInt64) :
    RouteAdvertisement :=
  { sender, generation, sequenceNumber, routes := table.filterMap (advertisedRoute targetNeighbor mode) }

def validateRoute (network : IPv6) (route : Route) : Except String Unit :=
  if route.destinationNode = zero 32 then
    .error "Route advertisement destination Node ID is empty"
  else if route.destination ≠ virtualAddress network route.destinationNode then
    .error "Route advertisement Node ID and IPv6 disagree"
  else if route.metric > routeMetricInfinity then
    .error "Route advertisement metric exceeds infinity"
  else .ok ()

def validateRouteAdvertisement (advertisement : RouteAdvertisement) (network : IPv6) :
    Except String Unit :=
  if advertisement.sender = zero 32
      ∨ advertisement.routes.length > maxRouteTableEntries then
    .error "Route advertisement sender or route count is invalid"
  else advertisement.routes.forM (validateRoute network)

end Madoka

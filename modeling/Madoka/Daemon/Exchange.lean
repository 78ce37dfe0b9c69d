import Madoka.Daemon.Convergence
import Madoka.Daemon.RoutingSync
import Madoka.Lib.AsyncVector
import Madoka.Network.UpdateEffect

/-!
# Exchange

A network of daemons that tell each other their route tables (`routing_loop`
and `run_session` of `core/daemon.cpp`). Nothing is in step: every locked block
of every thread of every node is an event of its own, and an advertisement is
received at any later time, any number of times or never.
-/

namespace Madoka

open Octets DistanceVector

/-! ## The network -/

/-- The routing state and the threads of a daemon, and how it numbers what it
tells. -/
structure Router extends RoutingThreads where
  generation : UInt64
  nextRouteSequence : UInt64

/-- An advertisement that has been sent, and on whose session. -/
structure Letter where
  receiver : NodeId
  advertisement : RouteAdvertisement

structure Exchange where
  node : NodeId → Router
  sent : List Letter

inductive ExchangeInput where
  | work (id : NodeId) (input : RoutingInput)
  | tell (id neighbor : NodeId)
  | hear (id : NodeId) (letter : Nat)

/-- What `routing_loop` makes for a neighbour under the lock. -/
def Router.advertisementFor (router : Router) (id neighbor : NodeId) : RouteAdvertisement :=
  routeCreateAdvertisement id router.table router.nextRouteSequence (some neighbor) .poisonReverse
    router.generation

section
variable (network : IPv6)

def Exchange.work (s : Exchange) (id : NodeId) (input : RoutingInput) : Exchange :=
  { s with
    node := Function.update s.node id
      { s.node id with
        toRoutingThreads := routingStep network id (s.node id).toRoutingThreads input } }

/-- The number is used up whether or not the advertisement arrives. -/
def Exchange.tell (s : Exchange) (id neighbor : NodeId) : Exchange where
  node := Function.update s.node id
    { s.node id with nextRouteSequence := (s.node id).nextRouteSequence + 1 }
  sent := s.sent
    ++ [{ receiver := neighbor, advertisement := (s.node id).advertisementFor id neighbor }]

def exchangeStep (s : Exchange) : ExchangeInput → Exchange
  | .work id input => s.work network id input
  | .tell id neighbor => s.tell id neighbor
  | .hear id letter =>
      match s.sent[letter]? with
      | none => s
      | some found =>
          if found.receiver ≠ id then s
          else s.work network id
            (.start 0 (.advertise found.advertisement.sender found.advertisement))

variable {network} {s : Exchange} {id other neighbor : NodeId} {input : RoutingInput}

@[simp] theorem Exchange.work_sent : (s.work network id input).sent = s.sent := rfl

@[simp] theorem Exchange.work_self : (s.work network id input).node id
    = { s.node id with
        toRoutingThreads := routingStep network id (s.node id).toRoutingThreads input } :=
  Function.update_self ..

theorem Exchange.work_other (h : other ≠ id) :
    (s.work network id input).node other = s.node other :=
  Function.update_of_ne h ..

@[simp] theorem Exchange.work_generation :
    ((s.work network id input).node other).generation = (s.node other).generation := by
  by_cases h : other = id
  · rw [h, work_self]
  · rw [work_other h]

@[simp] theorem Exchange.work_nextRouteSequence :
    ((s.work network id input).node other).nextRouteSequence
      = (s.node other).nextRouteSequence := by
  by_cases h : other = id
  · rw [h, work_self]
  · rw [work_other h]

@[simp] theorem Exchange.tell_toRoutingThreads :
    ((s.tell id neighbor).node other).toRoutingThreads = (s.node other).toRoutingThreads := by
  unfold tell
  by_cases h : other = id
  · rw [h]
    simp
  · simp [Function.update_of_ne h]

@[simp] theorem Exchange.tell_generation :
    ((s.tell id neighbor).node other).generation = (s.node other).generation := by
  unfold tell
  by_cases h : other = id
  · rw [h]
    simp
  · simp [Function.update_of_ne h]

theorem Exchange.tell_other (h : other ≠ id) : (s.tell id neighbor).node other = s.node other :=
  Function.update_of_ne h ..

theorem Exchange.tell_nextRouteSequence :
    ((s.tell id neighbor).node id).nextRouteSequence = (s.node id).nextRouteSequence + 1 := by
  simp [tell]

end

/-! ## Links that stay -/

/-- The peers of a node are its neighbours, connected and alive. -/
structure LinksUp (net : Network) (network : IPv6) (id : NodeId) (peers : List Peer) (now : Nat) :
    Prop where
  valid : PeersValid network peers
  live : ∀ other, IsLive peers other now ↔ net.graph.Adj id other
  connected : ∀ other, isConnected peers other ↔ net.graph.Adj id other

/-- A block that takes the links as they are: it forgets no neighbour and
nothing a neighbour has told, and it installs no outdated copy of the peers. -/
def BlockCalm (net : Network) (network : IPv6) (id : NodeId) (s : RoutingState) (now : Nat) :
    RoutingBlock → Prop
  | .drop other => ¬ net.graph.Adj id other
  | .expire started _ => ∀ other stored, net.graph.Adj id other →
      s.advertisements.lookup other = some stored → isExpired started stored = false
  | .install peers => LinksUp net network id peers now
  | _ => True

/-- Advertisements come in over the links only. -/
def InputCalm (net : Network) (network : IPv6) (id : NodeId) (s : RoutingThreads) :
    RoutingInput → Prop
  | .start _ operation => ∀ sender advertisement, operation ≠ .advertise sender advertisement
  | .run elapsed thread =>
      ∀ block rest, s.nextBlock thread = some (block, rest) →
        BlockCalm net network id s.toRoutingState (s.clock + elapsed) block

/-- While a node works its links are up; it tells and hears its neighbours
only, and its numbers do not run out. -/
def Steady (net : Network) (network : IPv6) (s : Exchange) : ExchangeInput → Prop
  | .work id input => id ∈ net.nodes →
      LinksUp net network id (s.node id).topology ((s.node id).clock + input.elapsed)
        ∧ LinksUp net network id ((s.work network id input).node id).topology
          ((s.node id).clock + input.elapsed)
        ∧ InputCalm net network id (s.node id).toRoutingThreads input
  | .tell id neighbor => net.graph.Adj id neighbor
      ∧ (s.node id).nextRouteSequence.toNat + 1 < 2 ^ 64
  | .hear id letter => ∀ found, s.sent[letter]? = some found → found.receiver = id →
      net.graph.Adj id found.advertisement.sender

/-! ## What always holds -/

/-- Advertisements of one sender in the order in which they were made. -/
def RouteAdvertisement.number (advertisement : RouteAdvertisement) : Nat ×ₗ Nat :=
  toLex (advertisement.generation.toNat, advertisement.sequenceNumber.toNat)

def RouteOriginState.number (origin : RouteOriginState) : Nat ×ₗ Nat :=
  toLex (origin.generation.toNat, origin.sequence.toNat)

/-- The number of the next advertisement. -/
def Router.number (router : Router) : Nat ×ₗ Nat :=
  toLex (router.generation.toNat, router.nextRouteSequence.toNat)

/-- An advertisement that a node of the network has made. -/
structure Genuine (net : Network) (network : IPv6) (s : Exchange)
    (advertisement : RouteAdvertisement) : Prop where
  valid : validateRouteAdvertisement advertisement network = .ok ()
  distinct : (advertisement.routes.map Route.destinationNode).Nodup
  inside : ∀ a ∈ advertisement.routes, a.destinationNode ∈ net.nodes
  past : advertisement.number < (s.node advertisement.sender).number

/-- The table of a node whose destinations are nodes of the network. -/
structure TableInside (net : Network) (network : IPv6) (table : RouteTable) : Prop where
  sound : TableSound table
  addressed : Addressed network table
  inside : ∀ r ∈ table, r.destinationNode ∈ net.nodes
  metric : ∀ r ∈ table, r.metric ≤ routeMetricInfinity

structure RouterSound (net : Network) (network : IPv6) (id : NodeId) (router : Router) : Prop where
  threads : RoutingInv network router.toRoutingThreads
  links : LinksUp net network id router.topology router.clock
  started : 0 < router.clock
  table : TableInside net network router.table
  inside : AdsInside net router.advertisements

/-- What is told, what is being handled and what has been heard is genuine. -/
structure ExchangeSound (net : Network) (network : IPv6) (s : Exchange) : Prop where
  nodes : ∀ id ∈ net.nodes, RouterSound net network id (s.node id)
  sent : ∀ letter ∈ s.sent, Genuine net network s letter.advertisement
  handled : ∀ id ∈ net.nodes, ∀ thread ∈ (s.node id).threads, ∀ sender advertisement,
    .advertise sender advertisement ∈ thread →
      Genuine net network s advertisement ∧ net.graph.Adj id sender
  heard : ∀ id ∈ net.nodes, ∀ sender origin, (s.node id).origins.lookup sender = some origin →
    origin.number < (s.node sender).number

/-! ## Numbers -/

theorem advertisementFresh_iff {origins : RouteOriginStates} {advertisement : RouteAdvertisement} :
    advertisementFresh origins advertisement = true
      ↔ ∀ last, origins.lookup advertisement.sender = some last →
          last.number < advertisement.number := by
  unfold advertisementFresh
  cases hlookup : origins.lookup advertisement.sender with
  | none => simp
  | some last =>
      simp only [Bool.not_eq_true', decide_eq_false_iff_not, Option.some.injEq, forall_eq',
        RouteOriginState.number, RouteAdvertisement.number, Prod.Lex.toLex_lt_toLex,
        UInt64.lt_iff_toNat_lt, UInt64.le_iff_toNat_le, ← UInt64.toNat_inj]
      omega

theorem Exchange.work_number {network : IPv6} {s : Exchange} {id other : NodeId}
    {input : RoutingInput} :
    ((s.work network id input).node other).number = (s.node other).number := by
  simp [Router.number]

/-- Numbers only grow. -/
theorem Exchange.tell_number {s : Exchange} {id neighbor other : NodeId}
    (hroom : (s.node id).nextRouteSequence.toNat + 1 < 2 ^ 64) :
    (s.node other).number ≤ ((s.tell id neighbor).node other).number := by
  unfold Router.number
  rw [tell_generation]
  by_cases h : other = id
  · rw [h, tell_nextRouteSequence]
    refine Prod.Lex.toLex_le_toLex.mpr (.inr ⟨rfl, ?_⟩)
    show (s.node id).nextRouteSequence.toNat ≤ ((s.node id).nextRouteSequence + 1).toNat
    rw [UInt64.toNat_add, UInt64.toNat_one, Nat.mod_eq_of_lt hroom]
    exact Nat.le_succ _
  · rw [tell_other h]

theorem Genuine.later {net : Network} {network : IPv6} {s s' : Exchange}
    {advertisement : RouteAdvertisement} (h : Genuine net network s advertisement)
    (hle : (s.node advertisement.sender).number ≤ (s'.node advertisement.sender).number) :
    Genuine net network s' advertisement :=
  { h with past := h.past.trans_le hle }

/-! ## What a block does to the routes -/

/-- What a block does to the table and to what has been told: nothing, or it
drops advertisements, rebuilds the table or takes an advertisement in. -/
inductive RouteEffect (s : RoutingState) (now : Nat) (s' : RoutingState) : RoutingBlock → Prop where
  | kept {block : RoutingBlock} (htable : s'.table = s.table) (horigins : s'.origins = s.origins)
      (hads : s'.advertisements = s.advertisements) : RouteEffect s now s' block
  | dropped {id : NodeId} (htable : s'.table = s.table) (horigins : s'.origins = s.origins)
      (hads : s'.advertisements = s.advertisements.erase id) : RouteEffect s now s' (.drop id)
  | expired {started : Nat} {topologyChanged : Bool} (htable : s'.table = s.table)
      (horigins : s'.origins = s.origins)
      (hads : s'.advertisements = expireAdvertisements s.advertisements started) :
      RouteEffect s now s' (.expire started topologyChanged)
  | rebuilt {peers : List Peer}
      (htable : s'.table = rebuildRoutingTable peers s.advertisements now)
      (horigins : s'.origins = s.origins) (hads : s'.advertisements = s.advertisements) :
      RouteEffect s now s' (.install peers)
  | taken {advertisement : RouteAdvertisement}
      (hfresh : advertisementFresh s.origins advertisement = true)
      (htable : s'.table
        = (applyRoutes s.table advertisement.sender advertisement now 1).1)
      (horigins : s'.origins = s.origins.insert advertisement.sender
        { generation := advertisement.generation, sequence := advertisement.sequenceNumber })
      (hads : s'.advertisements = s.advertisements.insert advertisement.sender
        { advertisement := advertisement, receivedAtMs := now }) :
      RouteEffect s now s' (.advertise advertisement.sender advertisement)

theorem distanceVectorUpdate_origins {table : RouteTable} {advertisement : RouteAdvertisement}
    {now : Nat} {origins : RouteOriginStates} :
    (distanceVectorUpdate table advertisement.sender advertisement now 1 (some origins)).accepted
        = advertisementFresh origins advertisement
      ∧ (advertisementFresh origins advertisement = true →
        (distanceVectorUpdate table advertisement.sender advertisement now 1
          (some origins)).originStates
          = some (origins.insert advertisement.sender
            { generation := advertisement.generation
              sequence := advertisement.sequenceNumber })) := by
  cases hfresh : advertisementFresh origins advertisement <;>
    simp [distanceVectorUpdate, hfresh]

theorem execute_effect (s : RoutingState) (now : Nat) (block : RoutingBlock) :
    RouteEffect s now (execute s now block).1 block := by
  cases block with
  | activate contact timestamp =>
      unfold execute
      dsimp only
      split <;> exact .kept rfl rfl rfl
  | advertise sender advertisement =>
      unfold execute
      dsimp only
      split
      · exact .kept rfl rfl rfl
      · next haccepted =>
          rw [Bool.not_eq_true', Bool.not_eq_false] at haccepted
          obtain ⟨rfl, htable, -⟩ := distanceVectorUpdate_accepted haccepted
          have hfresh := distanceVectorUpdate_fresh haccepted
          refine .taken hfresh htable ?_ rfl
          dsimp only
          rw [distanceVectorUpdate_origins.2 hfresh]
          rfl
  | drop id => exact .dropped rfl rfl rfl
  | expire started topologyChanged => exact .expired rfl rfl rfl
  | install peers => exact .rebuilt rfl rfl rfl
  | mark id => exact .kept rfl rfl rfl
  | touch id => exact .kept rfl rfl rfl
  | hello message => exact .kept rfl rfl rfl
  | prune started => exact .kept rfl rfl rfl
  | copy => exact .kept rfl rfl rfl

/-- Only a session brings advertisements: no block makes another thread
handle one. -/
theorem execute_more {s : RoutingState} {now : Nat} {block : RoutingBlock} {sender : NodeId}
    {advertisement : RouteAdvertisement} :
    .advertise sender advertisement ∉ (execute s now block).2 := by
  cases block with
  | activate contact timestamp =>
      unfold execute
      dsimp only
      split <;> simp
  | advertise other told =>
      unfold execute
      dsimp only
      split
      · simp
      · split <;> simp
  | touch id =>
      unfold execute
      dsimp only
      split <;> simp
  | expire started topologyChanged =>
      unfold execute
      dsimp only
      split <;> simp
  | _ => simp [execute]

/-- Once an advertisement has been handled its sender has been heard at least
so far. -/
theorem execute_heard {s : RoutingState} {now : Nat} {advertisement : RouteAdvertisement} :
    ∃ origin, (execute s now (.advertise advertisement.sender advertisement)).1.origins.lookup
        advertisement.sender = some origin
      ∧ advertisement.number ≤ origin.number := by
  unfold execute
  dsimp only
  cases hfresh : advertisementFresh s.origins advertisement with
  | true =>
      rw [distanceVectorUpdate_origins.1, hfresh, distanceVectorUpdate_origins.2 hfresh]
      exact ⟨_, AList.lookup_insert _, le_rfl⟩
  | false =>
      rw [distanceVectorUpdate_origins.1, hfresh]
      have hstale := mt advertisementFresh_iff.mpr (Bool.eq_false_iff.mp hfresh)
      obtain ⟨last, hlast⟩ := not_forall.mp hstale
      obtain ⟨hlookup, hle⟩ := Classical.not_imp.mp hlast
      exact ⟨last, hlookup, not_lt.mp hle⟩

/-! ## Tables -/

/-- What is told, destination by destination. -/
def told (routes : List Route) : Set (NodeId × Nat) :=
  {p | ∃ a ∈ routes, (a.destinationNode, a.metric) = p}

section
variable {net : Network} {network : IPv6} {id neighbor : NodeId} {peers : List Peer}
  {ads : RouteAdvertisements} {now : Nat} {table : RouteTable} {router : Router}
  {advertisement : RouteAdvertisement}

theorem LinksUp.inside (h : LinksUp net network id peers now) {other : NodeId}
    (hother : isConnected peers other) : other ∈ net.nodes :=
  net.inside other id (net.symm id other ((h.connected other).mp hother))

theorem TableInside.length (h : TableInside net network table) :
    table.length ≤ maxRouteTableEntries := by
  have hsub : (table.map Route.destinationNode).toFinset ⊆ net.nodes.toFinset := by
    intro d hd
    obtain ⟨r, hr, rfl⟩ := List.mem_map.mp (List.mem_toFinset.mp hd)
    exact List.mem_toFinset.mpr (h.inside r hr)
  have hcard := Finset.card_le_card hsub
  rw [List.toFinset_card_of_nodup h.sound.distinct, List.length_map,
    List.toFinset_card_of_nodup net.nodup] at hcard
  exact hcard.trans net.short

/-- The candidates for a rebuilt table name nodes of the network. -/
theorem LinksUp.covers (h : LinksUp net network id peers now) (hinside : AdsInside net ads) :
    Covers net.nodes.toFinset peers ads now := by
  intro r hr
  rw [List.mem_toFinset]
  cases hr with
  | @direct p hp halive =>
      exact h.inside (isConnected_iff.mpr ⟨p, hp, rfl, peerIsAlive_connected halive⟩)
  | @advertised n stored a hconnected hstored ha hother hfinite =>
      exact hinside n stored hstored a ha

theorem Network.card_le (net : Network) : net.nodes.toFinset.card ≤ maxRouteTableEntries := by
  rw [List.toFinset_card_of_nodup net.nodup]
  exact net.short

theorem LinksUp.fits (h : LinksUp net network id peers now) (hinside : AdsInside net ads) :
    Fits peers ads now :=
  ⟨net.nodes.toFinset, net.card_le, h.covers hinside⟩

theorem LinksUp.fitsTable (h : LinksUp net network id peers now) (hinside : AdsInside net ads) :
    FitsTable peers ads :=
  ⟨net.nodes.toFinset, net.card_le, fun _ hother => List.mem_toFinset.mpr (h.inside hother),
    fun n stored a _ hstored ha _ _ => List.mem_toFinset.mpr (hinside n stored hstored a ha)⟩

theorem LinksUp.rebuild (h : LinksUp net network id peers now) (hinside : AdsInside net ads)
    (hads : AdsValid network ads) (hdistinct : AdsDistinct ads) :
    TableInside net network (rebuildRoutingTable peers ads now) := by
  have hfits := h.fits hinside
  have hpeers := h.valid.toPeersSound
  have hmem := fun r hr =>
    ((mem_rebuildRoutingTable hpeers (hads.adsSound hdistinct) hfits (r := r)).mp hr).1
  exact
    { sound := (rebuild_find hpeers hads.adsNamed hfits (zero 32)).1
      addressed := rebuild_addressed h.valid hads (hfits.room hpeers)
      inside := fun r hr => List.mem_toFinset.mp (h.covers hinside r (hmem r hr))
      metric := fun r hr => (hmem r hr).finite.le }

/-- Taking an advertisement in keeps the table inside. -/
theorem TableInside.applyRoutes (h : TableInside net network table)
    (hvalid : validateRouteAdvertisement advertisement network = .ok ())
    (hdistinct : (advertisement.routes.map Route.destinationNode).Nodup)
    (hinside : ∀ a ∈ advertisement.routes, a.destinationNode ∈ net.nodes) :
    TableInside net network (applyRoutes table neighbor advertisement now 1).1 := by
  obtain ⟨hnamed, hroutes⟩ := validateRouteAdvertisement_ok hvalid
  obtain ⟨hsound, haddressed⟩ :=
    applyRoutes_addressed neighbor now 1 h.sound hnamed hroutes h.addressed
  have heffect : UpdateEffect neighbor 1 advertisement table _ :=
    applyRoutes_effect now 1 h.sound hnamed hdistinct
  have hbefore : ∀ r ∈ (Madoka.applyRoutes table neighbor advertisement now 1).1,
      r ∈ table ∨ ∃ a ∈ advertisement.routes, a.destinationNode = r.destinationNode
        ∧ r.metric = min routeMetricInfinity (1 + a.metric) := by
    intro r hr
    by_cases hother : r.nextHop ≠ neighbor ∨ r.destinationNode = neighbor
    · exact .inl (heffect.others r hr hother)
    · obtain ⟨hhop, hself⟩ := not_or.mp hother
      exact .inr (heffect.advertised r hr (not_not.mp hhop) hself)
  refine ⟨hsound, haddressed, fun r hr => ?_, fun r hr => ?_⟩
  · rcases hbefore r hr with hold | ⟨a, ha, hdest, -⟩
    · exact h.inside r hold
    · rw [← hdest]
      exact hinside a ha
  · rcases hbefore r hr with hold | ⟨a, -, -, hmetric⟩
    · exact h.metric r hold
    · rw [hmetric]
      exact min_le_left ..

/-- The update of the table is one of the abstract algorithm. -/
theorem TableInside.takesIn (h : TableInside net network table)
    (hvalid : validateRouteAdvertisement advertisement network = .ok ())
    (hdistinct : (advertisement.routes.map Route.destinationNode).Nodup)
    (hinside : ∀ a ∈ advertisement.routes, a.destinationNode ∈ net.nodes) :
    TakesIn routeMetricInfinity neighbor (told advertisement.routes) (tableEntry table)
      (tableEntry (Madoka.applyRoutes table neighbor advertisement now 1).1) := by
  have hnamed := (validateRouteAdvertisement_ok hvalid).1
  have heffect : UpdateEffect neighbor 1 advertisement table _ :=
    applyRoutes_effect now 1 h.sound hnamed hdistinct
  have hbefore := fun dest m hop =>
    @tableEntry_eq_offer table h.sound dest m hop
  have hafter := fun dest m hop => @tableEntry_eq_offer _ heffect.sound dest m hop
  constructor
  case via =>
    intro dest m hdest hentry
    obtain ⟨r, hr, rfl, rfl, hhop⟩ := (hafter dest m neighbor).mp hentry
    obtain ⟨a, ha, had, hmetric⟩ := heffect.advertised r hr hhop hdest
    exact ⟨a.metric, ⟨a, ha, by rw [had]⟩, by rw [hmetric, add_comm]⟩
  case others =>
    intro dest m hop hentry hother
    obtain ⟨r, hr, rfl, rfl, rfl⟩ := (hafter dest m hop).mp hentry
    exact (hbefore _ _ _).mpr ⟨r, heffect.others r hr hother, rfl, rfl, rfl⟩
  case better =>
    intro dest m hop hentry hhop
    obtain ⟨r, hr, rfl, rfl, rfl⟩ := (hbefore dest m hop).mp hentry
    rcases heffect.better r hr hhop with hkept | ⟨r', hr', hdest', hhop', hbetter⟩
    · exact .inl ((hafter _ _ _).mpr ⟨r, hkept, rfl, rfl, rfl⟩)
    · rw [hhop'] at hbetter
      exact .inr ⟨r'.metric, (hafter _ _ _).mpr ⟨r', hr', hdest', rfl, hhop'⟩, hbetter⟩
  case direct =>
    intro m hop hentry
    obtain ⟨r, hr, hdest, rfl, rfl⟩ := (hbefore neighbor m hop).mp hentry
    exact (hafter _ _ _).mpr ⟨r, heffect.direct r hr hdest, hdest, rfl, rfl⟩
  case kept =>
    rintro dest m k hentry ⟨a, ha, hak⟩ hnone
    obtain ⟨rfl, rfl⟩ := Prod.mk.inj hak
    obtain ⟨r, hr, hdest, -, -⟩ := (hbefore _ m neighbor).mp hentry
    have hstays : ((routingFindRoute table a.destinationNode).filter
        fun r => !withdrawn neighbor advertisement r).isSome := by
      have hnot : withdrawn neighbor advertisement r = false := by
        rw [Bool.eq_false_iff, Ne, withdrawn_eq_true (h.sound.named r hr) hnamed]
        exact fun hwithdrawn => hwithdrawn.2.2 a ha hdest.symm
      rw [← hdest, routingFindRoute_of_mem h.sound.distinct hr]
      simp [Option.filter, hnot]
    have hfind := (applyRoutes_find neighbor now 1 advertisement a.destinationNode h.sound hnamed
      (fun s hs => List.mem_toFinset.mpr (h.inside s hs))
      (fun b hb _ _ => List.mem_toFinset.mpr (hinside b hb)) (.inl net.card_le)).2.2
    have hsome : (mergeRoute neighbor now 1 advertisement a.destinationNode
        (routingFindRoute table a.destinationNode)).isSome := meetRoutes_isSome hstays
    rw [← hfind] at hsome
    obtain ⟨r', hr'⟩ := Option.isSome_iff_exists.mp hsome
    rw [tableEntry, hr'] at hnone
    exact WithTop.coe_ne_top hnone

/-- What a node tells of its table. -/
theorem Router.advertisementFor_routes :
    (router.advertisementFor id neighbor).routes
      = router.table.map fun r =>
          if r.nextHop = neighbor then { r with metric := routeMetricInfinity } else r := by
  simp only [advertisementFor, routeCreateAdvertisement, advertisedRoute_cases]
  rw [← List.filterMap_eq_map]
  rfl

/-- A node makes a genuine advertisement: its neighbours accept what it
tells of a table that is inside. -/
theorem TableInside.genuine {s : Exchange} (h : TableInside net network (s.node id).table)
    (hid : id ∈ net.nodes) (hroom : (s.node id).nextRouteSequence.toNat + 1 < 2 ^ 64) :
    Genuine net network (s.tell id neighbor) ((s.node id).advertisementFor id neighbor) where
  valid := by
    -- the same check as for the rounds, whatever the numbers are
    exact toldTo_valid
      (x := { prefixAddress := network, peers := fun _ _ => [], time := fun _ _ => 0
              sequence := fun _ _ _ => (s.node id).nextRouteSequence
              generation := fun _ _ => (s.node id).generation, initial := fun _ => ∅ })
      0 neighbor (net.named id hid) h.sound h.addressed h.metric h.length
  distinct := by
    have hsame : ((s.node id).advertisementFor id neighbor).routes.map Route.destinationNode
        = (s.node id).table.map Route.destinationNode := by
      rw [Router.advertisementFor_routes, List.map_map]
      refine List.map_congr_left fun r _ => ?_
      show Route.destinationNode (if r.nextHop = neighbor then _ else r) = r.destinationNode
      split <;> rfl
    rw [hsame]
    exact h.sound.distinct
  inside a ha := by
    rw [Router.advertisementFor_routes] at ha
    obtain ⟨r, hr, rfl⟩ := List.mem_map.mp ha
    split <;> exact h.inside r hr
  past := by
    show RouteAdvertisement.number _ < ((s.tell id neighbor).node id).number
    rw [Router.number, Exchange.tell_generation, Exchange.tell_nextRouteSequence]
    refine Prod.Lex.toLex_lt_toLex.mpr (.inr ⟨rfl, ?_⟩)
    show (s.node id).nextRouteSequence.toNat < ((s.node id).nextRouteSequence + 1).toNat
    rw [UInt64.toNat_add, UInt64.toNat_one, Nat.mod_eq_of_lt hroom]
    exact Nat.lt_succ_self _

end

/-! ## One step -/

/-- A step of a node starts a thread, does nothing or takes the next block of
one. -/
theorem routingStep_cases (network : IPv6) (id : NodeId) (s : RoutingThreads)
    (input : RoutingInput) :
    (∃ elapsed operation, input = .start elapsed operation
        ∧ routingStep network id s input = { s with
            clock := s.clock + elapsed
            threads := s.threads ++ [operation.blocks network id (s.clock + elapsed)] })
      ∨ (∃ elapsed thread, input = .run elapsed thread ∧ s.nextBlock thread = none
        ∧ routingStep network id s input = { s with clock := s.clock + elapsed })
      ∨ ∃ elapsed thread block rest, input = .run elapsed thread
        ∧ s.nextBlock thread = some (block, rest)
        ∧ routingStep network id s input =
          { toRoutingState := (execute s.toRoutingState (s.clock + elapsed) block).1
            clock := s.clock + elapsed
            threads := s.threads.set thread
              ((execute s.toRoutingState (s.clock + elapsed) block).2 ++ rest) } := by
  cases input with
  | start elapsed operation => exact .inl ⟨elapsed, operation, rfl, rfl⟩
  | run elapsed thread =>
      right
      cases hnext : s.nextBlock thread with
      | none =>
          refine .inl ⟨elapsed, thread, rfl, hnext, ?_⟩
          simp only [routingStep, hnext, RoutingInput.elapsed]
      | some next =>
          refine .inr ⟨elapsed, thread, next.1, next.2, rfl, hnext, ?_⟩
          simp only [routingStep, hnext, RoutingInput.elapsed]

theorem routingStep_clock (network : IPv6) (id : NodeId) (s : RoutingThreads)
    (input : RoutingInput) :
    (routingStep network id s input).clock = s.clock + input.elapsed := by
  rcases routingStep_cases network id s input with
    ⟨elapsed, operation, rfl, heq⟩ | ⟨elapsed, thread, rfl, -, heq⟩
      | ⟨elapsed, thread, block, rest, rfl, -, heq⟩
  all_goals rw [heq]; rfl

/-- What a node needs for a step that takes the links as they are. -/
structure RouterCalm (net : Network) (network : IPv6) (id : NodeId) (s : RoutingThreads)
    (input : RoutingInput) : Prop where
  before : LinksUp net network id s.topology (s.clock + input.elapsed)
  after : LinksUp net network id (routingStep network id s input).topology (s.clock + input.elapsed)
  block : ∀ elapsed thread block rest, input = .run elapsed thread →
    s.nextBlock thread = some (block, rest) →
    BlockCalm net network id s.toRoutingState (s.clock + elapsed) block

section
variable {net : Network} {network : IPv6} {id : NodeId} {router : Router} {s : RoutingThreads}
  {input : RoutingInput} {state : RoutingState} {now : Nat} {block : RoutingBlock}

/-- A calm block does not fall behind: nobody comes up that the table does not
know of. -/
theorem BlockCalm.keeps {owed : Prop} (hcalm : BlockCalm net network id state now block)
    (hbefore : LinksUp net network id state.topology now)
    (hafter : LinksUp net network id (execute state now block).1.topology now) (hnow : 0 < now)
    (honce : ∀ sender advertisement, block = .advertise sender advertisement →
      (advertisement.routes.map Route.destinationNode).Nodup) :
    BlockKeeps state now owed block := by
  cases block with
  | touch other =>
      intro hconnected hlive
      exact absurd ((hbefore.live other).mpr ((hbefore.connected other).mp hconnected)) hlive
  | hello message =>
      intro hsome
      have hdistinct := hbefore.valid.distinct
      obtain ⟨p, hfind⟩ := Option.isSome_iff_exists.mp hsome
      have hconnected : isConnected (execute state now (.hello message)).1.topology
          message.sender := by
        simp only [execute, heartbeatProcessHello_eq hdistinct fun _ => hnow]
        have hid : ∀ p : Peer, (p.heard now).id = p.id := fun _ => rfl
        rw [isConnected_changeAt hdistinct hid, hfind]
        simp [Peer.heard]
      exact ⟨hnow, .inl ((hbefore.live _).mpr ((hafter.connected _).mp hconnected))⟩
  | advertise sender advertisement => exact fun _ => honce sender advertisement rfl
  | install peers =>
      refine .inr ⟨fun other => ?_, fun other hlive => ?_⟩
      · rw [Bool.eq_iff_iff, hcalm.connected, hbefore.connected]
      · exact (hcalm.live other).mpr ((hbefore.live other).mp hlive)
  | _ => trivial

/-- What has been told stays inside. -/
theorem RouteEffect.adsInside {state' : RoutingState} (h : RouteEffect state now state' block)
    (hinside : AdsInside net state.advertisements)
    (hgenuine : ∀ sender advertisement, block = .advertise sender advertisement →
      ∀ a ∈ advertisement.routes, a.destinationNode ∈ net.nodes) :
    AdsInside net state'.advertisements := by
  intro n stored hlookup
  cases h with
  | kept _ _ hads => exact hinside n stored (hads ▸ hlookup)
  | rebuilt _ _ hads => exact hinside n stored (hads ▸ hlookup)
  | @dropped other _ _ hads =>
      rw [hads] at hlookup
      by_cases hn : n = other
      · rw [hn, AList.lookup_erase] at hlookup
        cases hlookup
      · exact hinside n stored ((AList.lookup_erase_ne hn).symm.trans hlookup)
  | expired _ _ hads => exact hinside n stored (lookup_expireAdvertisements (hads ▸ hlookup))
  | @taken advertisement _ _ _ hads =>
      rw [hads] at hlookup
      by_cases hn : n = advertisement.sender
      · rw [hn, AList.lookup_insert, Option.some.injEq] at hlookup
        rw [← hlookup]
        exact hgenuine _ advertisement rfl
      · exact hinside n stored ((AList.lookup_insert_ne hn).symm.trans hlookup)

theorem RouteEffect.tableInside {state' : RoutingState} (h : RouteEffect state now state' block)
    (htable : TableInside net network state.table) (hsound : RoutingSound network state now)
    (hinside : AdsInside net state.advertisements)
    (hcalm : BlockCalm net network id state now block)
    (hgenuine : ∀ sender advertisement, block = .advertise sender advertisement →
      validateRouteAdvertisement advertisement network = .ok ()
        ∧ (advertisement.routes.map Route.destinationNode).Nodup
        ∧ ∀ a ∈ advertisement.routes, a.destinationNode ∈ net.nodes) :
    TableInside net network state'.table := by
  cases h with
  | kept heq _ _ => rwa [heq]
  | dropped heq _ _ => rwa [heq]
  | expired heq _ _ => rwa [heq]
  | rebuilt heq _ _ =>
      rw [heq]
      exact LinksUp.rebuild hcalm hinside hsound.advertisements hsound.distinct
  | taken _ heq _ _ =>
      rw [heq]
      obtain ⟨hvalid, hdistinct, hroutes⟩ := hgenuine _ _ rfl
      exact htable.applyRoutes hvalid hdistinct hroutes

/-- A step of a node keeps it sound. -/
theorem RouterSound.step (h : RouterSound net network id router)
    (hcalm : RouterCalm net network id router.toRoutingThreads input)
    (hgenuine : ∀ thread ∈ router.threads, ∀ sender advertisement,
      .advertise sender advertisement ∈ thread →
      validateRouteAdvertisement advertisement network = .ok ()
        ∧ (advertisement.routes.map Route.destinationNode).Nodup
        ∧ ∀ a ∈ advertisement.routes, a.destinationNode ∈ net.nodes) :
    RouterSound net network id
      { router with toRoutingThreads := routingStep network id router.toRoutingThreads input } := by
  have hup' := hcalm.after
  have hblocks := hcalm.block
  have hclock := routingStep_clock network id router.toRoutingThreads input
  have hfits := h.links.fitsTable h.inside
  have hstarted : 0 < router.clock + input.elapsed := h.started.trans_le (Nat.le_add_right ..)
  have hkeeps : AdsInside net (routingStep network id router.toRoutingThreads input).advertisements →
      KeepsInSync router.toRoutingThreads input →
      TableInside net network (routingStep network id router.toRoutingThreads input).table →
      RouterSound net network id
        { router with
          toRoutingThreads := routingStep network id router.toRoutingThreads input } :=
    fun hinside hkeeps htable =>
      { threads := routingStep_inv h.threads hkeeps hfits (hup'.fitsTable hinside)
        links := by rwa [hclock]
        started := by rwa [hclock]
        table := htable
        inside := hinside }
  rcases routingStep_cases network id router.toRoutingThreads input with
    ⟨elapsed, operation, rfl, heq⟩ | ⟨elapsed, thread, rfl, hnext, heq⟩
      | ⟨elapsed, thread, block, rest, rfl, hnext, heq⟩
  · exact hkeeps (by rw [heq]; exact h.inside) trivial (by rw [heq]; exact h.table)
  · refine hkeeps (by rw [heq]; exact h.inside) ?_ (by rw [heq]; exact h.table)
    simp [KeepsInSync, hnext]
  · have heffect := execute_effect router.toRoutingState (router.clock + elapsed) block
    have hcalmBlock := hblocks elapsed thread block rest rfl hnext
    have hmem := nextBlock_some hnext
    have htold : ∀ sender advertisement, block = .advertise sender advertisement →
        validateRouteAdvertisement advertisement network = .ok ()
          ∧ (advertisement.routes.map Route.destinationNode).Nodup
          ∧ ∀ a ∈ advertisement.routes, a.destinationNode ∈ net.nodes := by
      rintro sender advertisement rfl
      exact hgenuine _ (List.mem_of_getElem? hmem) sender advertisement List.mem_cons_self
    have hsound := h.threads.sound.later (Nat.le_add_right router.clock elapsed)
    refine hkeeps ?_ ?_ ?_
    · rw [heq]
      exact heffect.adsInside h.inside fun sender advertisement hb => (htold _ _ hb).2.2
    · simp only [KeepsInSync, hnext]
      rw [heq] at hup'
      exact hcalmBlock.keeps hcalm.before hup' hstarted fun _ _ hb => (htold _ _ hb).2.1
    · rw [heq]
      exact heffect.tableInside h.table hsound h.inside hcalmBlock htold

end

/-! ## The whole network -/

section
variable {net : Network} {network : IPv6} {s : Exchange} {id : NodeId} {input : RoutingInput}

/-- The blocks of an operation hold an advertisement only if it brings it. -/
theorem advertise_mem_blocks {operation : RoutingOperation} {now : Nat} {sender : NodeId}
    {advertisement : RouteAdvertisement}
    (h : .advertise sender advertisement ∈ operation.blocks network id now) :
    operation = .advertise sender advertisement := by
  cases operation with
  | activate trust contact =>
      simp only [RoutingOperation.blocks] at h
      split at h <;> simp at h
  | hello other message =>
      simp only [RoutingOperation.blocks] at h
      split at h <;> simp at h
  | advertise other told =>
      simp only [RoutingOperation.blocks] at h
      split at h
      · simp at h
      · split at h
        · simp at h
        · simp only [List.mem_cons, reduceCtorEq, List.not_mem_nil, or_false, false_or] at h
          cases h
          rfl
  | _ => simp [RoutingOperation.blocks] at h

/-- What a step leaves to be handled was there, or is brought by it. -/
theorem advertise_mem_step {router : RoutingThreads} {sender : NodeId}
    {advertisement : RouteAdvertisement} {thread : List RoutingBlock}
    (hthread : thread ∈ (routingStep network id router input).threads)
    (h : .advertise sender advertisement ∈ thread) :
    (∃ elapsed, input = .start elapsed (.advertise sender advertisement))
      ∨ ∃ before ∈ router.threads, .advertise sender advertisement ∈ before := by
  rcases routingStep_cases network id router input with
    ⟨elapsed, operation, rfl, heq⟩ | ⟨elapsed, i, rfl, -, heq⟩
      | ⟨elapsed, i, block, rest, rfl, hnext, heq⟩
  · rw [heq] at hthread
    rcases List.mem_append.mp hthread with hthread | hthread
    · exact .inr ⟨thread, hthread, h⟩
    · rw [List.mem_singleton.mp hthread] at h
      exact .inl ⟨elapsed, congrArg _ (advertise_mem_blocks h)⟩
  · rw [heq] at hthread
    exact .inr ⟨thread, hthread, h⟩
  · rw [heq] at hthread
    exact .inr ((mem_threads_next (nextBlock_some hnext) hthread h).resolve_left execute_more)

/-- A node has heard what it had heard, or the advertisement it has handled. -/
theorem origins_step {router : RoutingThreads} {sender : NodeId} {origin : RouteOriginState}
    (h : (routingStep network id router input).origins.lookup sender = some origin) :
    router.origins.lookup sender = some origin
      ∨ ∃ thread ∈ router.threads, ∃ advertisement : RouteAdvertisement,
        .advertise sender advertisement ∈ thread ∧ advertisement.sender = sender
          ∧ origin.number = advertisement.number := by
  rcases routingStep_cases network id router input with
    ⟨elapsed, operation, rfl, heq⟩ | ⟨elapsed, i, rfl, -, heq⟩
      | ⟨elapsed, i, block, rest, rfl, hnext, heq⟩
  · exact .inl (by rwa [heq] at h)
  · exact .inl (by rwa [heq] at h)
  · rw [heq] at h
    have hmem := nextBlock_some hnext
    have heffect := execute_effect router.toRoutingState (router.clock + elapsed) block
    dsimp only at h
    cases heffect with
    | kept _ horigins _ => exact .inl (horigins ▸ h)
    | dropped _ horigins _ => exact .inl (horigins ▸ h)
    | expired _ horigins _ => exact .inl (horigins ▸ h)
    | rebuilt _ horigins _ => exact .inl (horigins ▸ h)
    | @taken advertisement _ _ horigins _ =>
        rw [horigins] at h
        by_cases hsender : sender = advertisement.sender
        · subst hsender
          rw [AList.lookup_insert, Option.some.injEq] at h
          refine .inr ⟨_, List.mem_of_getElem? hmem, advertisement, List.mem_cons_self, rfl, ?_⟩
          rw [← h]
          rfl
        · exact .inl ((AList.lookup_insert_ne hsender).symm.trans h)

theorem Genuine.work {advertisement : RouteAdvertisement}
    (h : Genuine net network s advertisement) :
    Genuine net network (s.work network id input) advertisement :=
  h.later Exchange.work_number.ge

theorem ExchangeSound.work (h : ExchangeSound net network s)
    (hcalm : id ∈ net.nodes → RouterCalm net network id (s.node id).toRoutingThreads input)
    (hbrought : id ∈ net.nodes → ∀ elapsed sender advertisement,
      input = .start elapsed (.advertise sender advertisement) →
      Genuine net network s advertisement ∧ net.graph.Adj id sender) :
    ExchangeSound net network (s.work network id input) where
  nodes other hother := by
    by_cases hsame : other = id
    · subst hsame
      rw [Exchange.work_self]
      refine (h.nodes other hother).step (hcalm hother) fun thread hthread sender ad had => ?_
      have hgenuine := (h.handled other hother thread hthread sender ad had).1
      exact ⟨hgenuine.valid, hgenuine.distinct, hgenuine.inside⟩
    · rw [Exchange.work_other hsame]
      exact h.nodes other hother
  sent letter hletter := (h.sent letter hletter).work
  handled other hother thread hthread sender advertisement hmem := by
    by_cases hsame : other = id
    · subst hsame
      rw [Exchange.work_self] at hthread
      rcases advertise_mem_step hthread hmem with ⟨elapsed, hinput⟩ | ⟨before, hbefore, hmem⟩
      · exact (hbrought hother elapsed sender advertisement hinput).imp_left Genuine.work
      · exact (h.handled other hother before hbefore sender advertisement hmem).imp_left
          Genuine.work
    · rw [Exchange.work_other hsame] at hthread
      exact (h.handled other hother thread hthread sender advertisement hmem).imp_left Genuine.work
  heard other hother sender origin hlookup := by
    rw [Exchange.work_number]
    by_cases hsame : other = id
    · subst hsame
      rw [Exchange.work_self] at hlookup
      rcases origins_step hlookup with hold | ⟨thread, hthread, ad, had, rfl, hnumber⟩
      · exact h.heard other hother sender origin hold
      · rw [hnumber]
        exact (h.handled other hother thread hthread _ ad had).1.past
    · rw [Exchange.work_other hsame] at hlookup
      exact h.heard other hother sender origin hlookup

theorem ExchangeSound.tell (h : ExchangeSound net network s) {neighbor : NodeId}
    (hid : id ∈ net.nodes) (hroom : (s.node id).nextRouteSequence.toNat + 1 < 2 ^ 64) :
    ExchangeSound net network (s.tell id neighbor) where
  nodes other hother := by
    have hsound := h.nodes other hother
    have hsame := @Exchange.tell_toRoutingThreads s id other neighbor
    exact
      { threads := by rw [hsame]; exact hsound.threads
        links := by rw [hsame]; exact hsound.links
        started := by rw [hsame]; exact hsound.started
        table := by rw [hsame]; exact hsound.table
        inside := by rw [hsame]; exact hsound.inside }
  sent letter hletter := by
    rcases List.mem_append.mp hletter with hletter | hletter
    · exact (h.sent letter hletter).later (Exchange.tell_number hroom)
    · rw [List.mem_singleton.mp hletter]
      exact (h.nodes id hid).table.genuine hid hroom
  handled other hother thread hthread sender advertisement hmem := by
    rw [Exchange.tell_toRoutingThreads] at hthread
    exact (h.handled other hother thread hthread sender advertisement hmem).imp_left
      fun hgenuine => hgenuine.later (Exchange.tell_number hroom)
  heard other hother sender origin hlookup := by
    rw [Exchange.tell_toRoutingThreads] at hlookup
    exact (h.heard other hother sender origin hlookup).trans_le (Exchange.tell_number hroom)

/-- A letter starts a thread of its receiver. -/
theorem exchangeStep_hear (network : IPv6) (s : Exchange) (id : NodeId) (letter : Nat) :
    exchangeStep network s (.hear id letter) = s
      ∨ ∃ found ∈ s.sent, s.sent[letter]? = some found ∧ found.receiver = id
        ∧ exchangeStep network s (.hear id letter) = s.work network id
          (.start 0 (.advertise found.advertisement.sender found.advertisement)) := by
  cases hfound : s.sent[letter]? with
  | none => exact .inl (by simp [exchangeStep, hfound])
  | some found =>
      by_cases hreceiver : found.receiver = id
      · exact .inr ⟨found, List.mem_of_getElem? hfound, rfl, hreceiver,
          by simp [exchangeStep, hfound, hreceiver]⟩
      · exact .inl (by simp [exchangeStep, hfound, hreceiver])

theorem RouterSound.calm_start {router : Router} (h : RouterSound net network id router)
    (operation : RoutingOperation) :
    RouterCalm net network id router.toRoutingThreads (.start 0 operation) where
  before := h.links
  after := h.links
  block := by
    intro elapsed thread block rest hinput
    cases hinput

theorem Steady.calm {inputs : ExchangeInput} (h : Steady net network s inputs) {id : NodeId}
    {input : RoutingInput} (hinput : inputs = .work id input) (hid : id ∈ net.nodes) :
    RouterCalm net network id (s.node id).toRoutingThreads input := by
  subst hinput
  obtain ⟨hbefore, hafter, hcalm⟩ := h hid
  refine ⟨hbefore, by rwa [Exchange.work_self] at hafter, ?_⟩
  rintro elapsed thread block rest rfl hnext
  exact hcalm block rest hnext

/-- While the links stay as they are all that is told is genuine, and every
node's table keeps up. -/
theorem ExchangeSound.step (h : ExchangeSound net network s) {input : ExchangeInput}
    (hsteady : Steady net network s input) :
    ExchangeSound net network (exchangeStep network s input) := by
  cases input with
  | work id input =>
      refine h.work (hsteady.calm rfl) fun hid => ?_
      rintro elapsed sender advertisement rfl
      exact absurd rfl ((hsteady hid).2.2 sender advertisement)
  | tell id neighbor =>
      exact h.tell (net.inside id neighbor hsteady.1) hsteady.2
  | hear id letter =>
      rcases exchangeStep_hear network s id letter with
        heq | ⟨found, hfound, hletter, hreceiver, heq⟩
      · rwa [heq]
      · rw [heq]
        refine h.work (fun hid => (h.nodes id hid).calm_start _) fun _ => ?_
        intro elapsed sender advertisement hinput
        cases hinput
        exact ⟨h.sent found hfound, hsteady found hletter hreceiver⟩

end

end Madoka

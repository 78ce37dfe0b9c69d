import Madoka.Daemon.Exchange

/-!
# Settling

However the nodes of a network are out of step, their tables become those of
the shortest paths once each neighbour has told each neighbour its table often
enough. What a message tells can be trusted up to a level, and later messages
can be trusted more.
-/

namespace Madoka

open Octets DistanceVector

/-! ## Levels -/

/-- What a node has stored of what another has told it. -/
def storedRoutes (ads : RouteAdvertisements) (sender : NodeId) : List Route :=
  match ads.lookup sender with
  | none => []
  | some stored => stored.advertisement.routes

/-- From a number on, what `v` tells `u` can be trusted up to a level. -/
structure Since (net : Network) (level : Nat) (mark : Nat ×ₗ Nat) (s : Exchange) (u v : NodeId) :
    Prop where
  sent : ∀ letter ∈ s.sent, letter.receiver = u → letter.advertisement.sender = v →
    mark ≤ letter.advertisement.number →
    Told net.graph level u v (told letter.advertisement.routes)
  handled : ∀ thread ∈ (s.node u).threads, ∀ advertisement,
    .advertise v advertisement ∈ thread → mark ≤ advertisement.number →
    Told net.graph level u v (told advertisement.routes)
  stored : ∀ origin, (s.node u).origins.lookup v = some origin → mark ≤ origin.number →
    Told net.graph level u v (told (storedRoutes (s.node u).advertisements v))

/-- `u` has heard from `v` that number, or a later one. -/
def HeardSince (mark : Nat ×ₗ Nat) (s : Exchange) (u v : NodeId) : Prop :=
  ∃ origin, (s.node u).origins.lookup v = some origin ∧ mark ≤ origin.number

/-- What `u` has from `v`, or may still take from it, can be trusted up to a
level. -/
def LinkAt (net : Network) (level : Nat) (s : Exchange) (u v : NodeId) : Prop :=
  level = 0 ∨ ∃ mark, Since net level mark s u v ∧ HeardSince mark s u v

def NodeAt (net : Network) (level : Nat) (s : Exchange) (u : NodeId) : Prop :=
  Right net.graph level u (tableEntry (s.node u).table)

structure Reached (net : Network) (level : Nat) (s : Exchange) : Prop where
  nodes : ∀ u ∈ net.nodes, NodeAt net level s u
  links : ∀ u ∈ net.nodes, ∀ v, net.graph.Adj u v → LinkAt net (level - 1) s u v

/-! ## Rounds -/

/-- Each node tells each neighbour its table and is heard some time later, and
after that each node is once at rest. -/
def IsRound (net : Network) (network : IPv6) (s : Exchange) (inputs : List ExchangeInput) : Prop :=
  ∃ talk rest, inputs = talk ++ rest
    ∧ (∀ u v, net.graph.Adj u v → ∃ before between after,
      talk = before ++ .tell v u :: (between
        ++ .hear u (Run.final (exchangeStep network) s before).sent.length :: after))
    ∧ ∀ u ∈ net.nodes, ∃ before after, rest = before ++ after
      ∧ ((Run.final (exchangeStep network) s (talk ++ before)).node u).Quiescent

def AreRounds (net : Network) (network : IPv6) : Exchange → List (List ExchangeInput) → Prop
  | _, [] => True
  | s, inputs :: rounds => IsRound net network s inputs
      ∧ AreRounds net network (Run.final (exchangeStep network) s inputs) rounds

/-! ## What a level gives -/

section
variable {net : Network} {network : IPv6} {level : Nat} {mark : Nat ×ₗ Nat} {s : Exchange}
  {u v id : NodeId} {peers : List Peer} {ads : RouteAdvertisements} {now : Nat}

theorem Network.dist_lt_of_reachable (net : Network) {dest : NodeId} (hreach : net.graph.Reachable u dest) :
    net.graph.dist u dest < routeMetricInfinity := by
  by_cases hu : u ∈ net.nodes
  · exact net.dist_lt hu hreach
  · -- outside the network a node reaches itself only
    have hself : u = dest := by
      obtain ⟨p⟩ := hreach
      cases p with
      | nil => rfl
      | cons hadj _ => exact absurd (net.inside u _ hadj) hu
    rw [hself, SimpleGraph.dist_self]
    decide

theorem LinkAt.stored (h : LinkAt net level s u v) :
    Told net.graph level u v (told (storedRoutes (s.node u).advertisements v)) := by
  rcases h with rfl | ⟨mark, hsince, origin, hlookup, hle⟩
  · exact told_zero
  · exact hsince.stored origin hlookup hle

/-- What is fresh is later than all that has been heard. -/
theorem LinkAt.fresh (h : LinkAt net level s u v) {thread : List RoutingBlock}
    {advertisement : RouteAdvertisement} (hthread : thread ∈ (s.node u).threads)
    (hmem : .advertise v advertisement ∈ thread) (hsender : advertisement.sender = v)
    (hfresh : advertisementFresh (s.node u).origins advertisement = true) :
    Told net.graph level u v (told advertisement.routes) := by
  rcases h with rfl | ⟨mark, hsince, origin, hlookup, hle⟩
  · exact told_zero
  · have hlater := advertisementFresh_iff.mp hfresh origin (hsender ▸ hlookup)
    exact hsince.handled thread hthread advertisement hmem (hle.trans hlater.le)

/-- What the rebuild of a node takes into account. -/
theorem LinksUp.offers (h : LinksUp net network u peers now) (dest : NodeId) :
    offersFor peers ads now dest
      = heard net.graph routeMetricInfinity (fun v => told (storedRoutes ads v)) u dest := by
  ext c
  constructor
  · rintro (⟨hlive, rfl⟩ | ⟨v, hv, stored, a, hlookup, ha, rfl, hne, hfinite, rfl⟩)
    · exact .inl ⟨(h.live dest).mp hlive, rfl⟩
    · have hadj := (h.connected v).mp (mem_advertisingNeighbors.mp hv).2
      have hroutes : storedRoutes ads v = stored.advertisement.routes := by
        rw [storedRoutes, hlookup]
      exact .inr ⟨v, a.metric, hadj, hne.symm, ⟨a, hroutes.symm ▸ ha, rfl⟩, by rwa [add_comm],
        by rw [add_comm]⟩
  · rintro (⟨hadj, rfl⟩ | ⟨v, m, hadj, hne, ⟨a, ha, heq⟩, hfinite, rfl⟩)
    · exact .inl ⟨(h.live dest).mpr hadj, rfl⟩
    · obtain ⟨rfl, rfl⟩ := Prod.mk.inj heq
      cases hlookup : ads.lookup v with
      | none =>
          rw [storedRoutes, hlookup] at ha
          exact absurd ha List.not_mem_nil
      | some stored =>
          rw [storedRoutes, hlookup] at ha
          have hv : v ∈ advertisingNeighbors peers ads := mem_advertisingNeighbors.mpr
            ⟨AList.lookup_isSome.mp (by rw [hlookup]; rfl), (h.connected v).mpr hadj⟩
          exact .inr ⟨v, hv, stored, a, hlookup, ha, rfl, hne.symm, by rwa [add_comm],
            by rw [add_comm]⟩

/-- A rebuild raises the level by one. -/
theorem LinksUp.rightRebuild (h : LinksUp net network u peers now) (hinside : AdsInside net ads)
    (hads : AdsValid network ads) (hdistinct : AdsDistinct ads)
    (htold : ∀ v, net.graph.Adj u v → Told net.graph level u v (told (storedRoutes ads v))) :
    Right net.graph (level + 1) u (tableEntry (rebuildRoutingTable peers ads now)) := by
  refine right_of_heard htold (fun dest hreach => net.dist_lt_of_reachable hreach) fun dest _ => ?_
  rw [← h.offers dest]
  exact rebuild_entry h.valid.toPeersSound (hads.adsSound hdistinct) (h.fits hinside) dest

theorem told_once {routes : List Route} (hdistinct : (routes.map Route.destinationNode).Nodup)
    (dest : NodeId) (k k' : Nat) (h : (dest, k) ∈ told routes) (h' : (dest, k') ∈ told routes) :
    k = k' := by
  obtain ⟨a, ha, heq⟩ := h
  obtain ⟨b, hb, heq'⟩ := h'
  obtain ⟨rfl, rfl⟩ := Prod.mk.inj heq
  obtain ⟨hdest, rfl⟩ := Prod.mk.inj heq'
  rw [List.inj_on_of_nodup_map hdistinct ha hb hdest.symm]

/-- A table is told up to the level it has. -/
theorem NodeAt.tells (h : NodeAt net level s v) (hlevel : level ≤ routeMetricInfinity)
    (hsound : TableSound (s.node v).table) :
    Told net.graph level u v (told ((s.node v).advertisementFor v u).routes) := by
  rw [Router.advertisementFor_routes]
  refine Right.tells h hlevel (fun dest m hmem => ?_) fun dest m hop hentry hne => ?_
  · obtain ⟨a, ha, heq⟩ := hmem
    obtain ⟨r, hr, rfl⟩ := List.mem_map.mp ha
    obtain ⟨rfl, rfl⟩ := Prod.mk.inj heq
    by_cases hhop : r.nextHop = u
    · rw [if_pos hhop]
      exact .inr rfl
    · rw [if_neg hhop]
      exact .inl ⟨r.nextHop, (tableEntry_eq_offer hsound).mpr ⟨r, hr, rfl, rfl, rfl⟩⟩
  · obtain ⟨r, hr, rfl, rfl, rfl⟩ := (tableEntry_eq_offer hsound).mp hentry
    exact ⟨r, List.mem_map.mpr ⟨r, hr, if_neg hne⟩, rfl⟩

end

/-! ## One step -/

section
variable {net : Network} {network : IPv6} {level : Nat} {mark : Nat ×ₗ Nat} {s : Exchange}
  {u v id : NodeId} {input : RoutingInput}

theorem lookup_expire_same {ads : RouteAdvertisements} {started : Nat}
    (h : ∀ stored, ads.lookup v = some stored → isExpired started stored = false) :
    (expireAdvertisements ads started).lookup v = ads.lookup v := by
  cases hlookup : ads.lookup v with
  | none =>
      cases hafter : (expireAdvertisements ads started).lookup v with
      | none => rfl
      | some stored =>
          rw [lookup_expireAdvertisements hafter] at hlookup
          cases hlookup
  | some stored =>
      refine AList.mem_lookup_iff.mpr (List.mem_filter.mpr ⟨AList.mem_lookup_iff.mp hlookup, ?_⟩)
      rw [h stored hlookup]
      rfl

/-- What a node holds of its neighbour changes only when it takes something
new from it. -/
theorem holds_step {router : RoutingThreads} (hadj : net.graph.Adj u v)
    (hcalm : RouterCalm net network u router input) :
    ((routingStep network u router input).origins.lookup v = router.origins.lookup v
        ∧ storedRoutes (routingStep network u router input).advertisements v
          = storedRoutes router.advertisements v)
      ∨ ∃ thread ∈ router.threads, ∃ advertisement : RouteAdvertisement,
        .advertise v advertisement ∈ thread
          ∧ advertisementFresh router.origins advertisement = true
          ∧ (routingStep network u router input).origins.lookup v
            = some { generation := advertisement.generation
                     sequence := advertisement.sequenceNumber }
          ∧ storedRoutes (routingStep network u router input).advertisements v
            = advertisement.routes ∧ advertisement.sender = v := by
  rcases routingStep_cases network u router input with
    ⟨elapsed, operation, rfl, heq⟩ | ⟨elapsed, i, rfl, -, heq⟩
      | ⟨elapsed, i, block, rest, rfl, hnext, heq⟩
  · rw [heq]
    exact .inl ⟨rfl, rfl⟩
  · rw [heq]
    exact .inl ⟨rfl, rfl⟩
  · have hblock := hcalm.block elapsed i block rest rfl hnext
    have heffect := execute_effect router.toRoutingState (router.clock + elapsed) block
    rw [heq]
    dsimp only
    cases heffect with
    | kept _ horigins hads => exact .inl ⟨by rw [horigins], by rw [hads]⟩
    | rebuilt _ horigins hads => exact .inl ⟨by rw [horigins], by rw [hads]⟩
    | @dropped other _ horigins hads =>
        have hne : v ≠ other := fun h => hblock (h ▸ hadj)
        refine .inl ⟨by rw [horigins], ?_⟩
        rw [hads, storedRoutes, AList.lookup_erase_ne hne, storedRoutes]
    | expired _ horigins hads =>
        refine .inl ⟨by rw [horigins], ?_⟩
        rw [hads, storedRoutes, lookup_expire_same fun stored => hblock v stored hadj, storedRoutes]
    | @taken advertisement hfresh _ horigins hads =>
        by_cases hsender : v = advertisement.sender
        · subst hsender
          refine .inr ⟨_, List.mem_of_getElem? (nextBlock_some hnext), advertisement,
            List.mem_cons_self, hfresh, ?_, ?_, rfl⟩
          · rw [horigins, AList.lookup_insert]
          · rw [hads, storedRoutes, AList.lookup_insert]
        · refine .inl ⟨?_, ?_⟩
          · rw [horigins, AList.lookup_insert_ne hsender]
          · rw [hads, storedRoutes, AList.lookup_insert_ne hsender, storedRoutes]

/-- What has been heard once is not forgotten. -/
theorem HeardSince.work (h : HeardSince mark s u v) (hadj : net.graph.Adj u v)
    (hcalm : u = id → RouterCalm net network id (s.node id).toRoutingThreads input) :
    HeardSince mark (s.work network id input) u v := by
  obtain ⟨origin, hlookup, hle⟩ := h
  unfold HeardSince
  by_cases hsame : u = id
  · subst hsame
    rw [Exchange.work_self]
    rcases holds_step hadj (hcalm rfl) with ⟨horigins, -⟩ | ⟨-, -, ad, -, hfresh, horigins, -, hsender⟩
    · exact ⟨origin, horigins.trans hlookup, hle⟩
    · refine ⟨_, horigins, hle.trans ?_⟩
      exact (advertisementFresh_iff.mp hfresh origin (hsender ▸ hlookup)).le
  · rw [Exchange.work_other hsame]
    exact ⟨origin, hlookup, hle⟩

theorem Since.work (h : Since net level mark s u v) (hadj : net.graph.Adj u v)
    (hcalm : u = id → RouterCalm net network id (s.node id).toRoutingThreads input)
    (hbrought : u = id → ∀ elapsed advertisement, input = .start elapsed (.advertise v advertisement) →
      mark ≤ advertisement.number → Told net.graph level u v (told advertisement.routes)) :
    Since net level mark (s.work network id input) u v where
  sent letter hletter := h.sent letter hletter
  handled thread hthread advertisement hmem hle := by
    by_cases hsame : u = id
    · subst hsame
      rw [Exchange.work_self] at hthread
      rcases advertise_mem_step hthread hmem with ⟨elapsed, hinput⟩ | ⟨before, hbefore, hmem⟩
      · exact hbrought rfl elapsed advertisement hinput hle
      · exact h.handled before hbefore advertisement hmem hle
    · rw [Exchange.work_other hsame] at hthread
      exact h.handled thread hthread advertisement hmem hle
  stored origin hlookup hle := by
    by_cases hsame : u = id
    · subst hsame
      rw [Exchange.work_self] at hlookup ⊢
      rcases holds_step hadj (hcalm rfl) with
        ⟨horigins, hads⟩ | ⟨thread, hthread, ad, hmem, -, horigins, hads, -⟩
      · rw [hads]
        exact h.stored origin (horigins.symm.trans hlookup) hle
      · rw [horigins, Option.some.injEq] at hlookup
        rw [hads]
        subst hlookup
        exact h.handled thread hthread ad hmem hle
    · rw [Exchange.work_other hsame] at hlookup ⊢
      exact h.stored origin hlookup hle

/-- A node may tell what it tells at the level it has. -/
theorem Since.tell {neighbor : NodeId} (h : Since net level mark s u v)
    (htells : id = v → neighbor = u →
      Told net.graph level u v (told ((s.node v).advertisementFor v u).routes)) :
    Since net level mark (s.tell id neighbor) u v where
  sent letter hletter hreceiver hsender hle := by
    rcases List.mem_append.mp hletter with hletter | hletter
    · exact h.sent letter hletter hreceiver hsender hle
    · rw [List.mem_singleton] at hletter
      subst hletter
      have hid : id = v := hsender
      have hneighbor : neighbor = u := hreceiver
      subst hid
      subst hneighbor
      exact htells rfl rfl
  handled thread hthread advertisement hmem hle := by
    rw [Exchange.tell_toRoutingThreads] at hthread
    exact h.handled thread hthread advertisement hmem hle
  stored origin hlookup hle := by
    rw [Exchange.tell_toRoutingThreads] at hlookup ⊢
    exact h.stored origin hlookup hle

theorem HeardSince.step {input : ExchangeInput} (h : HeardSince mark s u v)
    (hsound : ExchangeSound net network s) (hadj : net.graph.Adj u v)
    (hsteady : Steady net network s input) :
    HeardSince mark (exchangeStep network s input) u v := by
  have hu := net.inside u v hadj
  cases input with
  | work id input => exact h.work hadj fun heq => hsteady.calm rfl (heq ▸ hu)
  | tell id neighbor =>
      obtain ⟨origin, hlookup, hle⟩ := h
      refine ⟨origin, ?_, hle⟩
      show ((s.tell id neighbor).node u).origins.lookup v = some origin
      rwa [Exchange.tell_toRoutingThreads]
  | hear id letter =>
      rcases exchangeStep_hear network s id letter with
        heq | ⟨found, -, -, -, heq⟩
      · rwa [heq]
      · rw [heq]
        exact h.work hadj fun hid => (hsound.nodes id (hid ▸ hu)).calm_start _

theorem Since.step {input : ExchangeInput} (h : Since net level mark s u v)
    (hsound : ExchangeSound net network s) (hadj : net.graph.Adj u v)
    (hlevel : level ≤ routeMetricInfinity) (hnode : NodeAt net level s v)
    (hsteady : Steady net network s input) :
    Since net level mark (exchangeStep network s input) u v := by
  have hu := net.inside u v hadj
  have hv := net.inside v u hadj.symm
  cases input with
  | work id input =>
      refine h.work hadj (fun heq => hsteady.calm rfl (heq ▸ hu)) fun heq elapsed advertisement hinput => ?_
      subst heq
      subst hinput
      exact absurd rfl ((hsteady hu).2.2 v advertisement)
  | tell id neighbor =>
      refine h.tell fun _ _ => ?_
      exact hnode.tells hlevel (hsound.nodes v hv).table.sound
  | hear id letter =>
      rcases exchangeStep_hear network s id letter with
        heq | ⟨found, hfound, -, hreceiver, heq⟩
      · rwa [heq]
      · rw [heq]
        refine h.work hadj (fun hid => (hsound.nodes id (hid ▸ hu)).calm_start _) ?_
        intro hid elapsed advertisement hinput hle
        cases hinput
        exact h.sent found hfound (hreceiver.trans hid.symm) rfl hle

theorem LinkAt.step {input : ExchangeInput} (h : LinkAt net level s u v)
    (hsound : ExchangeSound net network s) (hadj : net.graph.Adj u v)
    (hlevel : level ≤ routeMetricInfinity) (hnode : NodeAt net level s v)
    (hsteady : Steady net network s input) :
    LinkAt net level (exchangeStep network s input) u v := by
  rcases h with hzero | ⟨mark, hsince, hheard⟩
  · exact .inl hzero
  · exact .inr ⟨mark, hsince.step hsound hadj hlevel hnode hsteady,
      hheard.step hsound hadj hsteady⟩

/-- A node keeps its level, where its links are one level behind at most. -/
theorem NodeAt.work (h : NodeAt net level s u) (hsound : ExchangeSound net network s)
    (hu : u ∈ net.nodes) (hlevel : level ≤ routeMetricInfinity)
    (hlinks : ∀ v, net.graph.Adj u v → LinkAt net (level - 1) s u v)
    (hcalm : RouterCalm net network u (s.node u).toRoutingThreads input) :
    Right net.graph level u
      (tableEntry (routingStep network u (s.node u).toRoutingThreads input).table) := by
  have hrouter := hsound.nodes u hu
  cases level with
  | zero => exact right_zero
  | succ level =>
      rcases routingStep_cases network u (s.node u).toRoutingThreads input with
        ⟨elapsed, operation, rfl, heq⟩ | ⟨elapsed, i, rfl, -, heq⟩
          | ⟨elapsed, i, block, rest, rfl, hnext, heq⟩
      · rwa [heq]
      · rwa [heq]
      · have hblock := hcalm.block elapsed i block rest rfl hnext
        have hstate := hrouter.threads.sound
        have heffect := execute_effect (s.node u).toRoutingState
          ((s.node u).clock + elapsed) block
        rw [heq]
        dsimp only
        cases heffect with
        | kept htable _ _ => rwa [htable]
        | dropped htable _ _ => rwa [htable]
        | expired htable _ _ => rwa [htable]
        | rebuilt htable _ _ =>
            rw [htable]
            exact LinksUp.rightRebuild hblock hrouter.inside hstate.advertisements
              hstate.distinct fun v hadj => (hlinks v hadj).stored
        | @taken advertisement hfresh htable _ _ =>
            have hthread := List.mem_of_getElem? (nextBlock_some hnext)
            obtain ⟨hgenuine, hadj⟩ :=
              hsound.handled u hu _ hthread _ advertisement List.mem_cons_self
            have htold := (hlinks _ hadj).fresh hthread List.mem_cons_self rfl hfresh
            rw [htable]
            exact Right.takesIn h htold (told_once hgenuine.distinct) hadj hlevel
              (fun dest hreach => net.dist_lt_of_reachable hreach)
              (hrouter.table.takesIn hgenuine.valid hgenuine.distinct hgenuine.inside)

theorem NodeAt.step {input : ExchangeInput} (h : NodeAt net level s u)
    (hsound : ExchangeSound net network s) (hu : u ∈ net.nodes)
    (hlevel : level ≤ routeMetricInfinity)
    (hlinks : ∀ v, net.graph.Adj u v → LinkAt net (level - 1) s u v)
    (hsteady : Steady net network s input) : NodeAt net level (exchangeStep network s input) u := by
  have hwork : ∀ {id : NodeId} {input : RoutingInput},
      (u = id → RouterCalm net network id (s.node id).toRoutingThreads input) →
      NodeAt net level (s.work network id input) u := by
    intro id input hcalm
    unfold NodeAt
    by_cases hsame : u = id
    · subst hsame
      rw [Exchange.work_self]
      exact h.work hsound hu hlevel hlinks (hcalm rfl)
    · rw [Exchange.work_other hsame]
      exact h
  cases input with
  | work id input => exact hwork fun heq => hsteady.calm rfl (heq ▸ hu)
  | tell id neighbor =>
      show Right net.graph level u (tableEntry ((s.tell id neighbor).node u).table)
      rw [Exchange.tell_toRoutingThreads]
      exact h
  | hear id letter =>
      rcases exchangeStep_hear network s id letter with
        heq | ⟨found, -, -, -, heq⟩
      · rwa [heq]
      · rw [heq]
        exact hwork fun hid => (hsound.nodes id (hid ▸ hu)).calm_start _

theorem Reached.step {input : ExchangeInput} (h : Reached net level s)
    (hsound : ExchangeSound net network s) (hlevel : level ≤ routeMetricInfinity)
    (hsteady : Steady net network s input) :
    Reached net level (exchangeStep network s input) where
  nodes u hu := (h.nodes u hu).step hsound hu hlevel (h.links u hu) hsteady
  links u hu v hadj := by
    have hv := net.inside v u hadj.symm
    have hnode : NodeAt net (level - 1) s v := Right.mono (h.nodes v hv) (Nat.sub_le level 1)
    exact (h.links u hu v hadj).step hsound hadj ((Nat.sub_le level 1).trans hlevel) hnode hsteady

end

/-! ## A letter on its way -/

/-- The number has been heard, or an advertisement that is as late is being
handled. -/
def Arriving (mark : Nat ×ₗ Nat) (s : Exchange) (u v : NodeId) : Prop :=
  HeardSince mark s u v ∨ ∃ thread ∈ (s.node u).threads, ∃ advertisement : RouteAdvertisement,
    .advertise v advertisement ∈ thread ∧ advertisement.sender = v ∧ mark ≤ advertisement.number

section
variable {net : Network} {network : IPv6} {level : Nat} {mark : Nat ×ₗ Nat} {s : Exchange}
  {u v id : NodeId} {input : RoutingInput}

/-- A thread keeps what it has to do until it is done. -/
theorem Arriving.work (h : Arriving mark s u v) (hadj : net.graph.Adj u v)
    (hcalm : u = id → RouterCalm net network id (s.node id).toRoutingThreads input) :
    Arriving mark (s.work network id input) u v := by
  rcases h with hheard | ⟨thread, hthread, advertisement, hmem, rfl, hle⟩
  · exact .inl (hheard.work hadj hcalm)
  · unfold Arriving HeardSince
    by_cases hsame : u = id
    · subst hsame
      rw [Exchange.work_self]
      rcases routingStep_cases network u (s.node u).toRoutingThreads input with
        ⟨elapsed, operation, rfl, heq⟩ | ⟨elapsed, i, rfl, -, heq⟩
          | ⟨elapsed, i, block, rest, rfl, hnext, heq⟩
      · rw [heq]
        exact .inr ⟨thread, List.mem_append_left _ hthread, advertisement, hmem, rfl, hle⟩
      · rw [heq]
        exact .inr ⟨thread, hthread, advertisement, hmem, rfl, hle⟩
      · rw [heq]
        dsimp only
        obtain ⟨before, after, hthreads, hset⟩ := threads_split (nextBlock_some hnext)
        rw [hthreads, List.mem_append, List.mem_cons] at hthread
        rw [hset]
        rcases hthread with hthread | rfl | hthread
        · exact .inr ⟨thread, List.mem_append_left _ hthread, advertisement, hmem, rfl, hle⟩
        · rcases List.mem_cons.mp hmem with hhead | hrest
          · -- this is the block that the thread takes
            subst hhead
            obtain ⟨origin, hlookup, hheard⟩ := @execute_heard (s.node u).toRoutingState
              ((s.node u).clock + elapsed) advertisement
            exact .inl ⟨origin, hlookup, hle.trans hheard⟩
          · exact .inr ⟨_, List.mem_append_right _ List.mem_cons_self, advertisement,
              List.mem_append_right _ hrest, rfl, hle⟩
        · exact .inr ⟨thread, List.mem_append_right _ (List.mem_cons_of_mem _ hthread),
            advertisement, hmem, rfl, hle⟩
    · rw [Exchange.work_other hsame]
      exact .inr ⟨thread, hthread, advertisement, hmem, rfl, hle⟩

theorem Arriving.step {input : ExchangeInput} (h : Arriving mark s u v)
    (hsound : ExchangeSound net network s) (hadj : net.graph.Adj u v)
    (hsteady : Steady net network s input) : Arriving mark (exchangeStep network s input) u v := by
  have hu := net.inside u v hadj
  cases input with
  | work id input => exact h.work hadj fun heq => hsteady.calm rfl (heq ▸ hu)
  | tell id neighbor =>
      unfold Arriving HeardSince
      show (∃ origin, ((s.tell id neighbor).node u).origins.lookup v = some origin
          ∧ mark ≤ origin.number)
        ∨ ∃ thread ∈ ((s.tell id neighbor).node u).threads, ∃ advertisement : RouteAdvertisement, _
      rw [Exchange.tell_toRoutingThreads]
      exact h
  | hear id letter =>
      rcases exchangeStep_hear network s id letter with
        heq | ⟨found, -, -, -, heq⟩
      · rwa [heq]
      · rw [heq]
        exact h.work hadj fun hid => (hsound.nodes id (hid ▸ hu)).calm_start _

theorem Arriving.heard (h : Arriving mark s u v) (hquiet : (s.node u).Quiescent) :
    HeardSince mark s u v := by
  rcases h with hheard | ⟨thread, hthread, advertisement, hmem, -⟩
  · exact hheard
  · rw [hquiet thread hthread] at hmem
    exact absurd hmem List.not_mem_nil

/-- What is told now is the first that can be trusted at the level of now. -/
theorem Since.told (hsound : ExchangeSound net network s) (hadj : net.graph.Adj u v)
    (hlevel : level ≤ routeMetricInfinity) (hnode : NodeAt net level s v) :
    Since net level (s.node v).number (s.tell v u) u v where
  sent letter hletter _ hsender hle := by
    have hv := net.inside v u hadj.symm
    rcases List.mem_append.mp hletter with hletter | hletter
    · have hpast := (hsound.sent letter hletter).past
      rw [hsender] at hpast
      exact absurd hle (not_le.mpr hpast)
    · rw [List.mem_singleton.mp hletter]
      exact hnode.tells hlevel (hsound.nodes v hv).table.sound
  handled thread hthread advertisement hmem hle := by
    rw [Exchange.tell_toRoutingThreads] at hthread
    have hu := net.inside u v hadj
    have hsender : advertisement.sender = v :=
      ((hsound.nodes u hu).threads.blocks thread hthread _ hmem).1
    have hpast := (hsound.handled u hu thread hthread v advertisement hmem).1.past
    rw [hsender] at hpast
    exact absurd hle (not_le.mpr hpast)
  stored origin hlookup hle := by
    rw [Exchange.tell_toRoutingThreads] at hlookup
    exact absurd hle (not_le.mpr (hsound.heard u (net.inside u v hadj) v origin hlookup))

/-- A letter that is heard is being handled. -/
theorem arriving_hear (hsound : ExchangeSound net network s) {letter : Nat} {found : Letter}
    (hfound : s.sent[letter]? = some found) :
    Arriving found.advertisement.number (exchangeStep network s (.hear found.receiver letter))
      found.receiver found.advertisement.sender := by
  have hstep : exchangeStep network s (.hear found.receiver letter)
      = s.work network found.receiver
        (.start 0 (.advertise found.advertisement.sender found.advertisement)) := by
    simp [exchangeStep, hfound]
  have hvalid := (hsound.sent found (List.mem_of_getElem? hfound)).valid
  have hblocks : (RoutingOperation.advertise found.advertisement.sender
      found.advertisement).blocks network found.receiver ((s.node found.receiver).clock + 0)
      = [.touch found.advertisement.sender,
          .advertise found.advertisement.sender found.advertisement] := by
    simp [RoutingOperation.blocks, hvalid]
  refine .inr ⟨[.touch found.advertisement.sender,
    .advertise found.advertisement.sender found.advertisement], ?_, found.advertisement,
    List.mem_cons_of_mem _ List.mem_cons_self, rfl, le_rfl⟩
  rw [hstep, Exchange.work_self, ← hblocks]
  exact List.mem_append_right _ List.mem_cons_self

/-- A letter stays where it was sent. -/
theorem sent_step {input : ExchangeInput} {letter : Nat} {found : Letter}
    (h : s.sent[letter]? = some found) :
    (exchangeStep network s input).sent[letter]? = some found := by
  cases input with
  | work id input => exact h
  | tell id neighbor =>
      show (s.sent ++ _)[letter]? = some found
      rw [List.getElem?_append_left (List.getElem?_eq_some_iff.mp h).1]
      exact h
  | hear id other =>
      rcases exchangeStep_hear network s id other with
        heq | ⟨found', -, -, -, heq⟩
      · rwa [heq]
      · rwa [heq]

end

/-! ## Runs -/

/-- All that is told is genuine, and the nodes have reached a level. -/
structure AtLevel (net : Network) (network : IPv6) (level : Nat) (s : Exchange) : Prop where
  sound : ExchangeSound net network s
  reached : Reached net level s

/-- A letter and what follows it can be trusted, and it is on its way. -/
structure Trusted (net : Network) (network : IPv6) (level : Nat) (mark : Nat ×ₗ Nat) (u v : NodeId)
    (s : Exchange) : Prop extends AtLevel net network level s where
  since : Since net level mark s u v
  arriving : Arriving mark s u v

/-- One node is a level further, with all that it has been told. -/
structure NodeAhead (net : Network) (network : IPv6) (level : Nat) (u : NodeId) (s : Exchange) :
    Prop extends AtLevel net network level s where
  node : NodeAt net (level + 1) s u
  told : ∀ v, net.graph.Adj u v → LinkAt net level s u v

section
variable {net : Network} {network : IPv6} {level : Nat} {mark : Nat ×ₗ Nat} {s : Exchange}
  {u v : NodeId} {inputs : List ExchangeInput}

theorem AtLevel.step {input : ExchangeInput} (h : AtLevel net network level s)
    (hlevel : level ≤ routeMetricInfinity) (hsteady : Steady net network s input) :
    AtLevel net network level (exchangeStep network s input) :=
  ⟨h.sound.step hsteady, h.reached.step h.sound hlevel hsteady⟩

theorem AtLevel.final (h : AtLevel net network level s) (hlevel : level ≤ routeMetricInfinity)
    (hrun : Run.Along (exchangeStep network) (Steady net network) s inputs) :
    AtLevel net network level (Run.final (exchangeStep network) s inputs) :=
  (Run.throughout_of_along (fun _ _ h hsteady => h.step hlevel hsteady) h hrun).final

theorem Trusted.step {input : ExchangeInput} (h : Trusted net network level mark u v s)
    (hadj : net.graph.Adj u v) (hlevel : level ≤ routeMetricInfinity)
    (hsteady : Steady net network s input) :
    Trusted net network level mark u v (exchangeStep network s input) where
  toAtLevel := h.toAtLevel.step hlevel hsteady
  since := h.since.step h.sound hadj hlevel (h.reached.nodes v (net.inside v u hadj.symm)) hsteady
  arriving := h.arriving.step h.sound hadj hsteady

theorem NodeAhead.step {input : ExchangeInput} (h : NodeAhead net network level u s)
    (hu : u ∈ net.nodes) (hlevel : level < routeMetricInfinity)
    (hsteady : Steady net network s input) :
    NodeAhead net network level u (exchangeStep network s input) where
  toAtLevel := h.toAtLevel.step hlevel.le hsteady
  node := h.node.step h.sound hu hlevel (fun v hadj => h.told v hadj) hsteady
  told v hadj := (h.told v hadj).step h.sound hadj hlevel.le
    (h.reached.nodes v (net.inside v u hadj.symm)) hsteady

/-- A node at rest has the table that it would rebuild. -/
theorem Reached.atRest (h : AtLevel net network level s) (hu : u ∈ net.nodes)
    (hquiet : (s.node u).Quiescent) (htold : ∀ v, net.graph.Adj u v → LinkAt net level s u v) :
    NodeAhead net network level u s where
  toAtLevel := h
  node := by
    have hrouter := h.sound.nodes u hu
    have hstate := hrouter.threads.sound
    have halive : ∀ p ∈ (s.node u).topology, p.state = .connected →
        peerIsAlive p (s.node u).clock peerTimeoutMs := by
      intro p hp hstate'
      have hconnected := isConnected_iff.mpr ⟨p, hp, rfl, hstate'⟩
      obtain ⟨q, hq, hid, hqalive⟩ :=
        (hrouter.links.live p.id).mpr ((hrouter.links.connected p.id).mp hconnected)
      rwa [← List.inj_on_of_nodup_map hrouter.links.valid.distinct hq hp hid]
    have hsame := hrouter.threads.inSync (hrouter.links.fitsTable hrouter.inside) hquiet
      (s.node u).clock le_rfl halive
    have hrebuilt := hrouter.links.rebuild hrouter.inside hstate.advertisements hstate.distinct
    have hentries : tableEntry (s.node u).table
        = tableEntry (rebuildRoutingTable (s.node u).topology (s.node u).advertisements
          (s.node u).clock) := funext fun dest => hsame.entry hrebuilt.sound dest
    unfold NodeAt
    rw [hentries]
    exact hrouter.links.rightRebuild hrouter.inside hstate.advertisements hstate.distinct
      fun v hadj => (htold v hadj).stored
  told := htold

/-- A letter that is told and then heard is trusted from then on. -/
theorem trusted_of_told (h : AtLevel net network level s) (hlevel : level ≤ routeMetricInfinity)
    (hadj : net.graph.Adj u v) {between after : List ExchangeInput}
    (hrun : Run.Along (exchangeStep network) (Steady net network) s
      (.tell v u :: (between ++ .hear u s.sent.length :: after))) :
    Trusted net network level (s.node v).number u v
      (Run.final (exchangeStep network) s
        (.tell v u :: (between ++ .hear u s.sent.length :: after))) := by
  obtain ⟨htell, hrest⟩ := hrun
  obtain ⟨hbetween, hhear, hafter⟩ := Run.along_append.mp hrest
  have htold : exchangeStep network s (.tell v u) = s.tell v u := rfl
  rw [Run.final_cons, Run.final_append, Run.final_cons]
  rw [htold] at hbetween hhear hafter ⊢
  -- the letter lies where it was sent until it is heard
  have hkept := Run.throughout_of_along (P := Steady net network)
    (I := fun s' => AtLevel net network level s' ∧ Since net level (s.node v).number s' u v
      ∧ s'.sent[s.sent.length]? = some
        { receiver := u, advertisement := (s.node v).advertisementFor v u })
    (fun s' i hs' hsteady => ⟨hs'.1.step hlevel hsteady,
      hs'.2.1.step hs'.1.sound hadj hlevel
        (hs'.1.reached.nodes v (net.inside v u hadj.symm)) hsteady, sent_step hs'.2.2⟩)
    ⟨htold ▸ h.step hlevel htell,
      .told h.sound hadj hlevel (h.reached.nodes v (net.inside v u hadj.symm)),
      by simp [Exchange.tell]⟩ hbetween
  obtain ⟨hlevelBefore, hsince, hfound⟩ := hkept.final
  have harrived := arriving_hear hlevelBefore.sound hfound
  have htrusted : Trusted net network level (s.node v).number u v
      (exchangeStep network (Run.final (exchangeStep network) (s.tell v u) between)
        (.hear u s.sent.length)) :=
    { toAtLevel := hlevelBefore.step hlevel hhear
      since := hsince.step hlevelBefore.sound hadj hlevel
        (hlevelBefore.reached.nodes v (net.inside v u hadj.symm)) hhear
      arriving := harrived }
  exact (Run.throughout_of_along (fun _ _ h hsteady => h.step hadj hlevel hsteady) htrusted
    hafter).final

/-- After a round the nodes are a level further. -/
theorem AtLevel.round (h : AtLevel net network level s) (hlevel : level < routeMetricInfinity)
    (hround : IsRound net network s inputs)
    (hrun : Run.Along (exchangeStep network) (Steady net network) s inputs) :
    AtLevel net network (level + 1) (Run.final (exchangeStep network) s inputs) := by
  obtain ⟨talk, rest, rfl, htalk, hrest⟩ := hround
  obtain ⟨hrunTalk, hrunRest⟩ := Run.along_append.mp hrun
  have hlinks : ∀ u v, net.graph.Adj u v → ∃ mark, Trusted net network level mark u v
      (Run.final (exchangeStep network) s talk) := by
    intro u v hadj
    obtain ⟨before, between, after, hsplit⟩ := htalk u v hadj
    rw [hsplit] at hrunTalk ⊢
    obtain ⟨hbefore, hafter⟩ := Run.along_append.mp hrunTalk
    rw [Run.final_append]
    exact ⟨_, trusted_of_told (h.final hlevel.le hbefore) hlevel.le hadj hafter⟩
  have hahead : ∀ u ∈ net.nodes, NodeAhead net network level u
      (Run.final (exchangeStep network) s (talk ++ rest)) := by
    intro u hu
    obtain ⟨before, after, rfl, hquiet⟩ := hrest u hu
    obtain ⟨hbefore, hafter⟩ := Run.along_append.mp hrunRest
    rw [← Run.final_append] at hafter
    have hthere := (h.final hlevel.le hrunTalk).final hlevel.le hbefore
    rw [← Run.final_append] at hthere
    have htold : ∀ v, net.graph.Adj u v →
        LinkAt net level (Run.final (exchangeStep network) s (talk ++ before)) u v := by
      intro v hadj
      obtain ⟨mark, htrusted⟩ := hlinks u v hadj
      have hkept := (Run.throughout_of_along
        (fun _ _ h hsteady => h.step hadj hlevel.le hsteady) htrusted hbefore).final
      rw [← Run.final_append] at hkept
      exact .inr ⟨mark, hkept.since, hkept.arriving.heard hquiet⟩
    have hnode := Reached.atRest hthere hu hquiet htold
    rw [← List.append_assoc, Run.final_append]
    exact (Run.throughout_of_along (fun _ _ h hsteady => h.step hu hlevel hsteady) hnode
      hafter).final
  have hlast := (h.final hlevel.le hrun).sound
  exact ⟨hlast, fun u hu => (hahead u hu).node, fun u hu v hadj => (hahead u hu).told v hadj⟩

theorem AtLevel.rounds {rounds : List (List ExchangeInput)} (h : AtLevel net network level s)
    (hlevel : level + rounds.length ≤ routeMetricInfinity) (hrounds : AreRounds net network s rounds)
    (hrun : Run.Along (exchangeStep network) (Steady net network) s rounds.flatten) :
    AtLevel net network (level + rounds.length)
      (Run.final (exchangeStep network) s rounds.flatten) := by
  induction rounds generalizing s level with
  | nil => exact h
  | cons inputs rounds ih =>
      rw [List.length_cons] at hlevel
      rw [List.flatten_cons] at hrun ⊢
      obtain ⟨hfirst, hrest⟩ := Run.along_append.mp hrun
      have hnext := h.round (by omega) hrounds.1 hfirst
      have hlast := ih hnext (by omega) hrounds.2 hrest
      rw [Run.final_append, List.length_cons]
      rwa [show level + (rounds.length + 1) = level + 1 + rounds.length by omega]

/-- At the level of infinity what a node has for a destination that can be
reached is a shortest route. -/
theorem AtLevel.shortest (h : AtLevel net network routeMetricInfinity s) {dest : NodeId}
    (hu : u ∈ net.nodes) (hne : u ≠ dest) (hreach : net.graph.Reachable u dest) :
    ∃ r, routingFindRoute (s.node u).table dest = some r ∧ ShortestRoute net u dest r := by
  obtain ⟨hop, hentry, hadj, hr, hd, hleast⟩ :=
    Right.entry_eq (h.reached.nodes u hu) hne.symm hreach (net.dist_lt_of_reachable hreach)
  have hsound := (h.sound.nodes u hu).table.sound
  obtain ⟨r, hmem, rfl, hmetric, rfl⟩ := (tableEntry_eq_offer hsound).mp hentry
  refine ⟨r, routingFindRoute_of_mem hsound.distinct hmem, hmetric, ⟨hadj, hr, hd⟩, ?_⟩
  rintro w ⟨hadj', hr', hd'⟩
  exact hleast w hadj' hr' hd'

end

/-! ## Two nodes -/

def PairBlock (id : NodeId) : RoutingBlock → Prop
  | .drop _ | .expire _ _ => False
  | .install peers => peers = pairInputs.peers 0 id
  | _ => True

instance decidablePairBlock (id : NodeId) : DecidablePred (PairBlock id) := fun block => by
  cases block <;> unfold PairBlock <;> infer_instance

/-- The peers stay as they are at time 1000. -/
def PairCalm (s : Exchange) : ExchangeInput → Prop
  | .work id (.run elapsed thread) =>
      (s.node id).topology = pairInputs.peers 0 id ∧ (s.node id).clock + elapsed = 1000
        ∧ ((s.work overlayNetwork id (.run elapsed thread)).node id).topology
          = pairInputs.peers 0 id
        ∧ ∀ next ∈ (s.node id).nextBlock thread, PairBlock id next.1
  | .work _ (.start _ _) => False
  | .tell id neighbor =>
      pairNetwork.linked id neighbor = true ∧ (s.node id).nextRouteSequence.toNat + 1 < 2 ^ 64
  | .hear id letter => ∀ found ∈ s.sent[letter]?, found.receiver = id →
      pairNetwork.linked id found.advertisement.sender = true

instance decidablePairCalm (s : Exchange) : DecidablePred (PairCalm s) := fun input => by
  rcases input with ⟨id, input⟩ | ⟨id, neighbor⟩ | ⟨id, letter⟩
  · cases input <;> unfold PairCalm <;> infer_instance
  · unfold PairCalm
    infer_instance
  · unfold PairCalm
    infer_instance

end Madoka

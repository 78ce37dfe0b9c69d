import Madoka.Lib.Run
import Madoka.Network.UpdateEffect

/-!
# Route Table Runs

The route table as a set of destinations over whole runs: when the entries
that any sequence of calls leaves are for different destinations, so that
looking one up does not depend on their order. Routes may come without a
destination node, and are then known by their address.
-/

namespace Madoka

open Octets FirstMatch

/-! ## The remaining operations -/

def routingRemoveRouteByAddress (table : RouteTable) (destination : IPv6) : Bool × RouteTable :=
  match table.find? fun r => r.destination = destination with
  | some _ => (true, table.eraseP fun r => r.destination = destination)
  | none => (false, table)

def routingRemoveRoute (table : RouteTable) (destination : NodeId) : Bool × RouteTable :=
  match table.find? fun r => r.destinationNode = destination with
  | some _ => (true, table.eraseP fun r => r.destinationNode = destination)
  | none => (false, table)

def routingExpireRoutes (table : RouteTable) (currentTime timeout : Nat) : RouteTable :=
  table.filter fun r => !decide (currentTime > r.lastUpdate ∧ currentTime - r.lastUpdate > timeout)

/-- One call of an operation that may write to the table. -/
inductive RouteCall where
  | add (route : Route)
  | update (neighbor : NodeId) (advertisement : RouteAdvertisement) (currentTime linkCost : Nat)
      (originStates : Option RouteOriginStates)
  | updateSequenced (neighbor : NodeId) (advertisement : RouteAdvertisement)
      (currentTime linkCost : Nat) (lastKnownSeq : Option UInt64)
  | removeByAddress (destination : IPv6)
  | remove (destination : NodeId)
  | expire (currentTime timeout : Nat)

/-- The table after the call. -/
def routeCall (table : RouteTable) : RouteCall → RouteTable
  | .add route => (routingAddRoute table route).2
  | .update neighbor advertisement currentTime linkCost originStates =>
      (distanceVectorUpdate table neighbor advertisement currentTime linkCost originStates).table
  | .updateSequenced neighbor advertisement currentTime linkCost lastKnownSeq =>
      (distanceVectorUpdateSequenced table neighbor advertisement currentTime linkCost
        lastKnownSeq).table
  | .removeByAddress destination => (routingRemoveRouteByAddress table destination).2
  | .remove destination => (routingRemoveRoute table destination).2
  | .expire currentTime timeout => routingExpireRoutes table currentTime timeout

/-! ## Tables in which every destination stands once -/

/-- No more entries than there is room for, none for the destination of
another, and every lookup the same in whatever order the entries stand. -/
structure Represented (table : RouteTable) : Prop where
  room : table.length ≤ maxRouteTableEntries
  distinct : table.Pairwise fun a b => sameDestination a b = false
  byNode : ∀ table' : RouteTable, table.Perm table' → ∀ dest, dest ≠ zero 32 →
    routingFindRoute table' dest = routingFindRoute table dest
  byAddress : ∀ table' : RouteTable, table.Perm table' → ∀ address,
    routingFindRouteByAddress table' address = routingFindRouteByAddress table address

/-- Two routes with one address, or with one destination node. -/
def Clash (a b : Route) : Prop :=
  a.destination = b.destination
    ∨ (a.destinationNode ≠ zero 32 ∧ a.destinationNode = b.destinationNode)

instance (a b : Route) : Decidable (Clash a b) :=
  inferInstanceAs (Decidable (_ ∨ _))

/-- No two entries clash. -/
def Separate (table : RouteTable) : Prop :=
  table.Pairwise fun a b => ¬ Clash a b

theorem Clash.symm {a b : Route} (h : Clash a b) : Clash b a := by
  rcases h with haddress | ⟨hne, hnode⟩
  · exact .inl haddress.symm
  · exact .inr ⟨fun hzero => hne (hnode.trans hzero), hnode.symm⟩

theorem clash_of_sameDestination {a b : Route} (h : sameDestination a b = true) : Clash a b := by
  rw [sameDestination] at h
  split at h
  · rename_i hnamed
    exact .inr ⟨hnamed.1, of_decide_eq_true h⟩
  · exact .inl (of_decide_eq_true h)

theorem sameDestination_comm (a b : Route) : sameDestination a b = sameDestination b a := by
  simp only [sameDestination, and_comm, eq_comm]

theorem sameDestination_self (a : Route) : sameDestination a a = true := by
  simp [sameDestination]

/-- Each destination stands once exactly when no two entries clash. -/
theorem represented_iff {table : RouteTable} :
    Represented table ↔ table.length ≤ maxRouteTableEntries ∧ Separate table := by
  constructor
  · intro h
    refine ⟨h.room, h.distinct.imp_of_mem fun {a b} ha hb hab hclash => ?_⟩
    have hne : a ≠ b := by
      rintro rfl
      rw [sameDestination_self] at hab
      cases hab
    rcases hclash with haddress | ⟨hzero, hnode⟩
    · exact hne (eq_of_find?_perm (fun ys hys => h.byAddress ys hys b.destination) ha hb
        (decide_eq_true haddress) (decide_eq_true rfl))
    · have hzero' : b.destinationNode ≠ zero 32 := fun heq => hzero (hnode.trans heq)
      exact hne (eq_of_find?_perm (fun ys hys => h.byNode ys hys b.destinationNode hzero') ha hb
        (decide_eq_true hnode) (decide_eq_true rfl))
  · rintro ⟨hroom, hseparate⟩
    refine ⟨hroom, hseparate.imp fun {a b} hab => ?_, fun ys hys dest hdest => ?_,
      fun ys hys address => ?_⟩
    · rw [Bool.eq_false_iff]
      exact fun hsame => hab (clash_of_sameDestination hsame)
    · refine (find?_perm hys (hseparate.imp fun {a b} hab hboth => hab ?_)).symm
      obtain ⟨ha, hb⟩ := hboth
      rw [decide_eq_true_eq] at ha hb
      exact .inr ⟨ha.symm ▸ hdest, ha.trans hb.symm⟩
    · refine (find?_perm hys (hseparate.imp fun {a b} hab hboth => hab ?_)).symm
      obtain ⟨ha, hb⟩ := hboth
      rw [decide_eq_true_eq] at ha hb
      exact .inl (ha.trans hb.symm)

/-! ## Writing one entry -/

theorem separate_middle {before after : RouteTable} {route : Route} :
    Separate (before ++ route :: after)
      ↔ (∀ other ∈ before ++ after, ¬ Clash route other) ∧ Separate (before ++ after) := by
  rw [Separate, List.pairwise_middle fun hab hba => hab hba.symm, List.pairwise_cons]
  rfl

theorem separate_concat {table : RouteTable} {route : Route} :
    Separate (table ++ [route]) ↔ (∀ other ∈ table, ¬ Clash route other) ∧ Separate table := by
  have h := @separate_middle table [] route
  rwa [List.append_nil] at h

/-- None of the entries the route would not be written over clashes with it. -/
def Clear (table : RouteTable) (route : Route) : Prop :=
  ∀ other ∈ table.eraseP (fun existing => sameDestination existing route), ¬ Clash route other

instance (table : RouteTable) (route : Route) : Decidable (Clear table route) :=
  inferInstanceAs (Decidable (∀ other ∈ _, ¬ _))

/-- The route is better than the one there is for its destination, or there is
none and still room. -/
def GetsIn (table : RouteTable) (route : Route) : Prop :=
  match table.find? fun existing => sameDestination existing route with
  | some existing => route.metric < existing.metric
      ∨ (route.metric = existing.metric ∧ route.nextHop < existing.nextHop)
  | none => table.length < maxRouteTableEntries

/-- The advertised route takes the place of the one there is for its
destination, or there is none and still room. -/
def Enters (neighbor : NodeId) (linkCost : Nat) (table : RouteTable) (advertised : Route) : Prop :=
  advertised.destinationNode ≠ neighbor ∧ advertised.metricVia linkCost < routeMetricInfinity
    ∧ match table.find? fun existing => sameDestination existing advertised with
      | some existing => advertised.metricVia linkCost < existing.metric
          ∨ (advertised.metricVia linkCost = existing.metric ∧ neighbor < existing.nextHop)
          ∨ existing.nextHop = neighbor
      | none => table.length < maxRouteTableEntries

/-- Two routes for one address and one node. -/
def SameKeys (a b : Route) : Prop :=
  a.destination = b.destination ∧ a.destinationNode = b.destinationNode

theorem SameKeys.clash_iff {a b other : Route} (h : SameKeys a b) : Clash a other ↔ Clash b other := by
  rw [Clash, Clash, h.1, h.2]

section
variable {table : RouteTable} {route : Route}

theorem find?_absent (h : ∀ r ∈ table, sameDestination r route = false) :
    (table.find? fun existing => sameDestination existing route) = none :=
  List.find?_eq_none.mpr fun r hr => by simp [h r hr]

theorem clear_absent_iff (h : ∀ r ∈ table, sameDestination r route = false) :
    Clear table route ↔ ∀ other ∈ table, ¬ Clash route other := by
  rw [Clear, List.eraseP_of_forall_not fun r hr => by simp [h r hr]]

/-- Writing to the first entry for a destination keeps the table separate
exactly when the route that replaces it is clear of the others. -/
theorem separate_update_iff {β : Type} {f : Route → Route × β} (writes : Route → Prop)
    {table' : RouteTable} {told : β} (h : Separate table)
    (hupdate : update (fun existing => sameDestination existing route) f table = some (table', told))
    (hwrites : ∀ existing, writes existing → SameKeys (f existing).1 route)
    (hkeeps : ∀ existing, ¬ writes existing → SameKeys (f existing).1 existing) :
    ∃ existing, (table.find? fun existing => sameDestination existing route) = some existing
      ∧ (Separate table' ↔ (writes existing → Clear table route)) := by
  obtain ⟨before, existing, after, rfl, hbefore, hmatch, rfl, -⟩ := update_eq_some hupdate
  obtain ⟨hexisting, hothers⟩ := separate_middle.mp h
  refine ⟨existing, find?_split hbefore hmatch, ?_⟩
  rw [separate_middle, and_iff_left hothers, Clear, eraseP_split hbefore hmatch]
  by_cases hwrite : writes existing
  · simp only [hwrite, true_implies]
    exact forall₂_congr fun other _ => not_congr (hwrites existing hwrite).clash_iff
  · simp only [hwrite, false_implies, iff_true]
    exact fun other hother hclash =>
      hexisting other hother ((hkeeps existing hwrite).clash_iff.mp hclash)

/-- Appending a route for which there is no entry. -/
theorem separate_append_iff (h : Separate table)
    (habsent : ∀ r ∈ table, sameDestination r route = false) {added : Route}
    (hkeys : SameKeys added route) : Separate (table ++ [added]) ↔ Clear table route := by
  rw [separate_concat, and_iff_left h, clear_absent_iff habsent]
  exact forall₂_congr fun other _ => not_congr hkeys.clash_iff

theorem separate_routingAddRoute_iff (h : Separate table) :
    Separate (routingAddRoute table route).2 ↔ (GetsIn table route → Clear table route) := by
  have hcomm : (fun existing => sameDestination route existing)
      = fun existing => sameDestination existing route :=
    funext fun existing => sameDestination_comm route existing
  rw [routingAddRoute, hcomm, GetsIn]
  cases hupdate : update (fun existing => sameDestination existing route) _ table with
  | none =>
      have habsent := update_eq_none.mp hupdate
      rw [find?_absent habsent]
      dsimp only
      split
      · rename_i hfull
        exact ⟨fun _ hroom => absurd hroom (not_lt.mpr hfull), fun _ => h⟩
      · rename_i hroom
        rw [separate_append_iff h habsent ⟨rfl, rfl⟩]
        exact ⟨fun hclear _ => hclear, fun hclear => hclear (not_le.mp hroom)⟩
  | some result =>
      obtain ⟨table', added⟩ := result
      obtain ⟨existing, hfind, hiff⟩ := separate_update_iff
        (fun existing => route.metric < existing.metric
          ∨ (route.metric = existing.metric ∧ route.nextHop < existing.nextHop)) h hupdate
        (fun existing hwrite => by rw [if_pos hwrite]; exact ⟨rfl, rfl⟩)
        (fun existing hkeep => by rw [if_neg hkeep]; exact ⟨rfl, rfl⟩)
      rw [hfind]
      exact hiff

end

/-! ## One advertised route -/

section
variable {table : RouteTable} {neighbor : NodeId} {currentTime linkCost : Nat} {advertised : Route}

theorem poisonRoute_keys (existing : Route) :
    SameKeys (poisonRoute neighbor currentTime existing).1 existing := by
  unfold poisonRoute
  split_ifs
  · exact ⟨rfl, rfl⟩
  · exact ⟨rfl, rfl⟩

theorem replaceRoute_keys_kept {candidate existing : Route}
    (h : ¬ (candidate.metric < existing.metric
      ∨ (candidate.metric = existing.metric ∧ neighbor < existing.nextHop)
      ∨ existing.nextHop = neighbor)) :
    SameKeys (replaceRoute neighbor currentTime candidate existing).1 existing := by
  unfold replaceRoute
  dsimp only
  rw [if_neg h]
  exact ⟨rfl, rfl⟩

theorem replaceRoute_keys_written {candidate existing : Route}
    (h : candidate.metric < existing.metric
      ∨ (candidate.metric = existing.metric ∧ neighbor < existing.nextHop)
      ∨ existing.nextHop = neighbor) :
    SameKeys (replaceRoute neighbor currentTime candidate existing).1 candidate := by
  unfold replaceRoute
  dsimp only
  rw [if_pos h]
  split_ifs with hchanged hrefresh
  · exact ⟨rfl, rfl⟩
  -- nothing but the time was different
  all_goals
    simp only [not_or, not_not] at hchanged
    exact ⟨hchanged.1, hchanged.2.1⟩

theorem separate_applyRoute_iff (h : Separate table) :
    Separate (applyRoute neighbor currentTime linkCost table advertised).1
      ↔ (Enters neighbor linkCost table advertised → Clear table advertised) := by
  unfold applyRoute
  dsimp only
  split
  · rename_i hself
    exact ⟨fun _ henters => absurd hself henters.1, fun _ => h⟩
  · rename_i hother
    split
    · rename_i hinfinite
      have hnever : ¬ Enters neighbor linkCost table advertised :=
        fun henters => absurd henters.2.1 (not_lt.mpr hinfinite)
      refine ⟨fun _ henters => absurd henters hnever, fun _ => ?_⟩
      cases hupdate : update (fun route => sameDestination route advertised)
          (poisonRoute neighbor currentTime) table with
      | none => exact h
      | some result =>
          obtain ⟨table', changed⟩ := result
          obtain ⟨existing, -, hiff⟩ := separate_update_iff (fun _ => False) h hupdate
            (fun _ hwrite => hwrite.elim) (fun existing _ => poisonRoute_keys existing)
          exact hiff.mpr fun hfalse => hfalse.elim
    · rename_i hfinite
      cases hupdate : update (fun route => sameDestination route advertised)
          (replaceRoute neighbor currentTime (routeCreate advertised.destination neighbor
            (min routeMetricInfinity (linkCost + advertised.metric)) currentTime
            advertised.destinationNode)) table with
      | none =>
          have habsent := update_eq_none.mp hupdate
          rw [Enters, find?_absent habsent]
          dsimp only
          split
          · rename_i hroom
            refine Iff.trans (separate_append_iff h habsent ⟨rfl, rfl⟩) ?_
            exact ⟨fun hclear _ => hclear,
              fun hclear => hclear ⟨hother, not_le.mp hfinite, hroom⟩⟩
          · rename_i hfull
            exact ⟨fun _ henters => absurd henters.2.2 hfull, fun _ => h⟩
      | some result =>
          obtain ⟨table', changed⟩ := result
          obtain ⟨existing, hfind, hiff⟩ := separate_update_iff
            (fun existing => advertised.metricVia linkCost < existing.metric
              ∨ (advertised.metricVia linkCost = existing.metric ∧ neighbor < existing.nextHop)
              ∨ existing.nextHop = neighbor) h hupdate
            (fun existing hwrite => replaceRoute_keys_written hwrite)
            (fun existing hkeep => replaceRoute_keys_kept hkeep)
          rw [Enters, hfind]
          refine hiff.trans ⟨fun hclear henters => hclear henters.2.2,
            fun hclear hwrite => hclear ⟨hother, not_le.mp hfinite, hwrite⟩⟩

theorem length_update {β : Type} {p : Route → Bool} {f : Route → Route × β} {table' : RouteTable}
    {told : β} (h : update p f table = some (table', told)) : table'.length = table.length := by
  obtain ⟨before, existing, after, rfl, -, -, rfl, -⟩ := update_eq_some h
  simp

theorem length_applyRoute_le (h : table.length ≤ maxRouteTableEntries) :
    (applyRoute neighbor currentTime linkCost table advertised).1.length
      ≤ maxRouteTableEntries := by
  unfold applyRoute
  dsimp only
  split
  · exact h
  · split
    · cases hupdate : update (fun route => sameDestination route advertised)
          (poisonRoute neighbor currentTime) table with
      | none => exact h
      | some result => exact (length_update hupdate).le.trans h
    · split
      · rename_i result hupdate
        exact (length_update hupdate).le.trans h
      · split
        · rename_i hroom
          rw [List.length_append]
          exact hroom
        · exact h

theorem length_routingAddRoute_le {route : Route} (h : table.length ≤ maxRouteTableEntries) :
    (routingAddRoute table route).2.length ≤ maxRouteTableEntries := by
  unfold routingAddRoute
  split
  · rename_i result hupdate
    exact (length_update hupdate).le.trans h
  · split
    · exact h
    · rename_i hroom
      rw [List.length_append]
      exact not_le.mp hroom

end

/-! ## Whole calls -/

theorem represented_sublist {table table' : RouteTable} (h : Represented table)
    (hsub : table'.Sublist table) : Represented table' := by
  obtain ⟨hroom, hseparate⟩ := represented_iff.mp h
  exact represented_iff.mpr ⟨hsub.length_le.trans hroom, hseparate.sublist hsub⟩

/-- The table while the routes of an advertisement are applied, one after the
other. -/
theorem applyRouteList_eq_final (neighbor : NodeId) (currentTime linkCost : Nat)
    (routes : List Route) (table : RouteTable) :
    (applyRouteList neighbor currentTime linkCost routes table).1
      = Run.final (fun table advertised =>
          (applyRoute neighbor currentTime linkCost table advertised).1) table routes := by
  induction routes generalizing table with
  | nil => rfl
  | cons advertised rest ih => exact ih _

/-- Each advertised route that gets in is clear of the other entries, in the
table it meets. -/
def UpdateClear (table : RouteTable) (neighbor : NodeId) (advertisement : RouteAdvertisement)
    (currentTime linkCost : Nat) : Prop :=
  Run.Along
    (fun table advertised => (applyRoute neighbor currentTime linkCost table advertised).1)
    (fun table advertised => Enters neighbor linkCost table advertised → Clear table advertised)
    (table.filter fun route => !withdrawn neighbor advertisement route) advertisement.routes

theorem represented_applyRoutes {table : RouteTable} {neighbor : NodeId}
    {advertisement : RouteAdvertisement} {currentTime linkCost : Nat} (h : Represented table)
    (hclear : UpdateClear table neighbor advertisement currentTime linkCost) :
    Represented (applyRoutes table neighbor advertisement currentTime linkCost).1 := by
  have hkept := represented_sublist h (List.filter_sublist
    (p := fun route => !withdrawn neighbor advertisement route))
  have hrun : Run.Throughout
      (fun table advertised => (applyRoute neighbor currentTime linkCost table advertised).1)
      Represented (table.filter fun route => !withdrawn neighbor advertisement route)
      advertisement.routes := by
    refine Run.throughout_of_along (fun table advertised hbefore hstep => ?_) hkept hclear
    obtain ⟨hroom, hseparate⟩ := represented_iff.mp hbefore
    exact represented_iff.mpr
      ⟨length_applyRoute_le hroom, (separate_applyRoute_iff hseparate).mpr hstep⟩
  have hfinal := hrun.final
  rw [← applyRouteList_eq_final] at hfinal
  exact hfinal

theorem represented_routingAddRoute_iff {table : RouteTable} {route : Route}
    (h : Represented table) :
    Represented (routingAddRoute table route).2 ↔ (GetsIn table route → Clear table route) := by
  obtain ⟨hroom, hseparate⟩ := represented_iff.mp h
  rw [represented_iff, and_iff_right (length_routingAddRoute_le hroom)]
  exact separate_routingAddRoute_iff hseparate

/-- What a call must not do: let a route in, by an accepted advertisement or
directly, that has the address or the node of an entry it is not written over. -/
def CallClear (table : RouteTable) : RouteCall → Prop
  | .add route => GetsIn table route → Clear table route
  | .update neighbor advertisement currentTime linkCost originStates =>
      advertisement.sender = neighbor →
      (∀ states ∈ originStates, advertisementFresh states advertisement = true) →
      UpdateClear table neighbor advertisement currentTime linkCost
  | .updateSequenced neighbor advertisement currentTime linkCost lastKnownSeq =>
      advertisement.sender = neighbor →
      (∀ last ∈ lastKnownSeq, last < advertisement.sequenceNumber) →
      UpdateClear table neighbor advertisement currentTime linkCost
  | .removeByAddress _ | .remove _ | .expire _ _ => True

theorem represented_routeCall {table : RouteTable} {call : RouteCall} (h : Represented table)
    (hclear : CallClear table call) : Represented (routeCall table call) := by
  cases call with
  | add route => exact (represented_routingAddRoute_iff h).mpr hclear
  | update neighbor advertisement currentTime linkCost originStates =>
      show Represented (distanceVectorUpdate table neighbor advertisement currentTime linkCost
        originStates).table
      rw [distanceVectorUpdate]
      split
      · exact h
      · rename_i haccepted
        obtain ⟨hsender, hfresh⟩ := not_or.mp haccepted
        refine represented_applyRoutes h (hclear (not_not.mp hsender) fun states hstates => ?_)
        cases hstates
        simpa using hfresh
  | updateSequenced neighbor advertisement currentTime linkCost lastKnownSeq =>
      show Represented (distanceVectorUpdateSequenced table neighbor advertisement currentTime
        linkCost lastKnownSeq).table
      rw [distanceVectorUpdateSequenced]
      split
      · exact h
      · rename_i haccepted
        obtain ⟨hsender, hlater⟩ := not_or.mp haccepted
        refine represented_applyRoutes h (hclear (not_not.mp hsender) fun last hlast => ?_)
        cases hlast
        simpa using hlater
  | removeByAddress destination =>
      show Represented (routingRemoveRouteByAddress table destination).2
      rw [routingRemoveRouteByAddress]
      split
      · exact represented_sublist h List.eraseP_sublist
      · exact h
  | remove destination =>
      show Represented (routingRemoveRoute table destination).2
      rw [routingRemoveRoute]
      split
      · exact represented_sublist h List.eraseP_sublist
      · exact h
  | expire currentTime timeout => exact represented_sublist h List.filter_sublist

/-! ## Whole runs -/

theorem represented_routingInit : Represented routingInit :=
  represented_iff.mpr ⟨Nat.zero_le _, List.Pairwise.nil⟩

/-- As long as every route that gets in is clear of the entries it is not
written over, every destination stands once in the table. -/
theorem routeRun_represented {calls : List RouteCall}
    (h : Run.Along routeCall CallClear routingInit calls) :
    Run.Throughout routeCall Represented routingInit calls :=
  Run.throughout_of_along (fun _ _ => represented_routeCall) represented_routingInit h

/-- A route by way of node 9. Node 0 is none. -/
def routeTo (address node : UInt8) (metric : Nat) : Route where
  destination := front 16 [address]
  destinationNode := front 32 [node]
  nextHop := front 32 [9]
  metric := metric
  lastUpdate := 0

theorem routeRun_represented_two :
    Run.Throughout routeCall Represented routingInit
      [.add (routeTo 1 1 5), .add (routeTo 2 0 5), .add (routeTo 1 1 4), .expire 9 3] :=
  routeRun_represented ⟨fun _ => by decide, fun _ => by decide,
    fun _ => by decide, trivial, trivial⟩

/-- A better route for the first entry brings along the address of the second. -/
theorem routingAddRoute_repeats :
    ¬ ∀ calls : List RouteCall, Run.Throughout routeCall Represented routingInit calls := by
  intro hall
  have hfinal := (hall [.add (routeTo 1 1 5), .add (routeTo 2 0 5), .add (routeTo 2 1 4)]).final
  have hdistinct := hfinal.distinct
  exact absurd hdistinct (by decide)

end Madoka

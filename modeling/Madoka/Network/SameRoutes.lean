import Madoka.Network.RouteUpdate

/-!
# Same Routes

Tables compared up to the order of their routes and the times of their last
updates. Where the addresses are derived from the identifiers, a table is
given by its metrics and next hops.
-/

namespace Madoka

open Octets DistanceVector

/-- What a table has for a destination: a metric and a next hop. -/
def tableEntry (table : RouteTable) (dest : NodeId) : WithTop (Offer NodeId) :=
  entryOffer (routingFindRoute table dest)

/-- A route without the time of its last update. -/
def Route.untimed (r : Route) : Route := { r with lastUpdate := 0 }

/-- Two tables hold the same routes, up to their order and their times. -/
def SameRoutes (table table' : RouteTable) : Prop :=
  (table.map Route.untimed).Perm (table'.map Route.untimed)

section
variable {network : IPv6} {table table' : RouteTable}

theorem SameRoutes.symm (h : SameRoutes table table') : SameRoutes table' table :=
  List.Perm.symm h

theorem SameRoutes.trans {table'' : RouteTable} (h : SameRoutes table table')
    (h' : SameRoutes table' table'') : SameRoutes table table'' :=
  List.Perm.trans h h'

theorem untimed_eq_iff {r r' : Route} :
    r.untimed = r'.untimed ↔ r.destination = r'.destination
      ∧ r.destinationNode = r'.destinationNode ∧ r.nextHop = r'.nextHop ∧ r.metric = r'.metric := by
  simp [Route.untimed]

theorem map_destinationNode_untimed (table : RouteTable) :
    (table.map Route.untimed).map Route.destinationNode = table.map Route.destinationNode := by
  rw [List.map_map]
  rfl

/-- The same routes, found from the other side. -/
theorem SameRoutes.mem (h : SameRoutes table table') {r : Route} (hr : r ∈ table) :
    ∃ r' ∈ table', r'.untimed = r.untimed :=
  List.mem_map.mp (h.mem_iff.mp (List.mem_map_of_mem hr))

theorem SameRoutes.tableSound (h : SameRoutes table table') (hsound : TableSound table') :
    TableSound table where
  named r hr := by
    obtain ⟨r', hr', heq⟩ := h.mem hr
    rw [← (untimed_eq_iff.mp heq).2.1]
    exact hsound.named r' hr'
  distinct := by
    have hperm := List.Perm.map Route.destinationNode h
    rw [map_destinationNode_untimed, map_destinationNode_untimed] at hperm
    exact hperm.nodup_iff.mpr hsound.distinct

theorem SameRoutes.addressed (h : SameRoutes table table') (haddressed : Addressed network table') :
    Addressed network table := by
  intro r hr
  obtain ⟨r', hr', heq⟩ := h.mem hr
  obtain ⟨haddress, hdest, -, -⟩ := untimed_eq_iff.mp heq
  rw [← haddress, ← hdest]
  exact haddressed r' hr'

theorem SameRoutes.find (h : SameRoutes table table') (hsound : TableSound table')
    (dest : NodeId) :
    (routingFindRoute table dest).map Route.untimed
      = (routingFindRoute table' dest).map Route.untimed := by
  have hsound' := h.tableSound hsound
  cases hfind : routingFindRoute table dest with
  | some r =>
      obtain ⟨hr, rfl⟩ := routingFindRoute_some hfind
      obtain ⟨r', hr', heq⟩ := h.mem hr
      rw [← (untimed_eq_iff.mp heq).2.1, routingFindRoute_of_mem hsound.distinct hr']
      exact congrArg some heq.symm
  | none =>
      cases hfind' : routingFindRoute table' dest with
      | none => rfl
      | some r' =>
          obtain ⟨hr', rfl⟩ := routingFindRoute_some hfind'
          obtain ⟨r, hr, heq⟩ := h.symm.mem hr'
          exact absurd (untimed_eq_iff.mp heq).2.1 (routingFindRoute_eq_none.mp hfind r hr)

theorem entryOffer_untimed (existing : Option Route) :
    entryOffer (existing.map Route.untimed) = entryOffer existing := by
  cases existing <;> rfl

theorem SameRoutes.entry (h : SameRoutes table table') (hsound : TableSound table')
    (dest : NodeId) : tableEntry table dest = tableEntry table' dest := by
  rw [tableEntry, ← entryOffer_untimed, h.find hsound, entryOffer_untimed, tableEntry]

/-- Tables whose addresses are derived are the same when their entries are. -/
theorem sameRoutes_of_entries (hsound : TableSound table) (hsound' : TableSound table')
    (haddressed : Addressed network table) (haddressed' : Addressed network table')
    (hentries : ∀ dest, tableEntry table dest = tableEntry table' dest) :
    SameRoutes table table' := by
  have key : ∀ {left right : RouteTable}, TableSound left → TableSound right →
      Addressed network left → Addressed network right →
      (∀ dest, tableEntry left dest = tableEntry right dest) →
      ∀ r ∈ left, r.untimed ∈ right.map Route.untimed := by
    intro left right hleft hright haleft haright heq r hr
    have hentry := heq r.destinationNode
    rw [tableEntry, routingFindRoute_of_mem hleft.distinct hr, tableEntry] at hentry
    cases hfind : routingFindRoute right r.destinationNode with
    | none =>
        rw [hfind] at hentry
        exact absurd hentry WithTop.coe_ne_top
    | some r' =>
        obtain ⟨hr', hdest⟩ := routingFindRoute_some hfind
        rw [hfind] at hentry
        obtain ⟨hmetric, hhop⟩ := offer_inj.mp (WithTop.coe_inj.mp hentry)
        have haddress : r'.destination = r.destination := by
          rw [haleft r hr, haright r' hr', hdest]
        exact List.mem_map.mpr ⟨r', hr',
          untimed_eq_iff.mpr ⟨haddress, hdest, hhop.symm, hmetric.symm⟩⟩
  have hnodup : ∀ {t : RouteTable}, TableSound t → (t.map Route.untimed).Nodup := by
    intro t ht
    refine List.Nodup.of_map Route.destinationNode ?_
    rw [map_destinationNode_untimed]
    exact ht.distinct
  refine (List.perm_ext_iff_of_nodup (hnodup hsound) (hnodup hsound')).mpr fun s => ⟨?_, ?_⟩
  · intro hs
    obtain ⟨r, hr, rfl⟩ := List.mem_map.mp hs
    exact key hsound hsound' haddressed haddressed' hentries r hr
  · intro hs
    obtain ⟨r, hr, rfl⟩ := List.mem_map.mp hs
    exact key hsound' hsound haddressed' haddressed (fun dest => (hentries dest).symm) r hr

end

end Madoka

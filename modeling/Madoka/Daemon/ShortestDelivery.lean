import Madoka.Daemon.Delivery
import Madoka.Daemon.Settling

/-!
# Shortest Delivery

Once the tables of a network have settled, a packet that a node reads from its
TUN device comes out of the TUN device of its destination, over as many links
as the destination is away.
-/

namespace Madoka

open Octets DistanceVector

/-- The data planes of the nodes of a network: each works with the table of
its node, over open sessions with its neighbours. -/
structure Carries (net : Network) (netPrefix : Bytes) (mtu : Nat) (s : Exchange)
    (hops : NodeId → PathHop) : Prop where
  id : ∀ v ∈ net.nodes, (hops v).node.id = v
  table : ∀ v ∈ net.nodes, (hops v).node.table = (s.node v).table
  same : ∀ v ∈ net.nodes, SameNetwork netPrefix mtu (hops v).node
  addressed : ∀ v ∈ net.nodes, ∀ p ∈ (hops v).node.topology,
    p.virtualAddress = virtualAddress (hops v).node.network p.id
  session : ∀ v w, net.graph.Adj v w →
    (findSessionByNextHop (hops v).node (hops v).answers.now w).isSome
  sends : ∀ v w wire, net.graph.Adj v w → (hops v).answers.sends w wire = true
  shares : ∀ v ∈ net.nodes, (hops v).node.shareAllPorts = true
  tun : ∀ v ∈ net.nodes, (hops v).answers.tunWrites = true

section
variable {net : Network} {network : IPv6} {netPrefix : Bytes} {mtu : Nat} {s : Exchange}
  {hops : NodeId → PathHop} {u v dest : NodeId}

/-- A settled table sends a packet on to a node that is one link closer. -/
theorem Carries.forwards (h : Carries net netPrefix mtu s hops)
    (hlevel : AtLevel net network routeMetricInfinity s) (hu : u ∈ net.nodes) (hne : u ≠ dest)
    (hreach : net.graph.Reachable u dest) :
    ∃ next, net.graph.Adj u next ∧ net.graph.Reachable next dest
      ∧ net.graph.dist next dest + 1 = net.graph.dist u dest
      ∧ Forwards (hops u) dest (hops next).node.id := by
  obtain ⟨r, hfind, hroute⟩ := hlevel.shortest hu hne hreach
  obtain ⟨hadj, hnext, hcloser⟩ := hroute.nextHop.1
  have hinside := net.inside r.nextHop u hadj.symm
  refine ⟨r.nextHop, hadj, hnext, hcloser, ?_, ⟨r, ?_, ?_, ?_⟩, ?_, ?_⟩
  · rwa [h.id u hu]
  · rwa [h.table u hu]
  · rw [h.id _ hinside]
  · rw [hroute.metric]
    exact net.dist_lt_of_reachable hreach
  · rw [h.id _ hinside]
    exact h.session u _ hadj
  · intro wire
    rw [h.id _ hinside]
    exact h.sends u _ wire hadj

/-- So the tables give a shortest path, by induction on the distance. -/
theorem Carries.path (h : Carries net netPrefix mtu s hops)
    (hlevel : AtLevel net network routeMetricInfinity s) (distance : Nat) (hu : u ∈ net.nodes)
    (hreach : net.graph.Reachable u dest) (hdistance : net.graph.dist u dest = distance) :
    ∃ path : List NodeId, path.length = distance ∧ (∀ w ∈ path, w ∈ net.nodes)
      ∧ PathTo dest (hops u) (path.map hops) := by
  induction distance generalizing u with
  | zero =>
      have hself : u = dest := by
        by_contra hne
        have hpos := hreach.pos_dist_of_ne hne
        omega
      subst hself
      exact ⟨[], rfl, fun w hw => absurd hw List.not_mem_nil, h.id u hu, h.shares u hu, h.tun u hu⟩
  | succ distance ih =>
      have hne : u ≠ dest := by
        rintro rfl
        rw [SimpleGraph.dist_self] at hdistance
        omega
      obtain ⟨next, hadj, hnext, hcloser, hforwards⟩ := h.forwards hlevel hu hne hreach
      have hinside := net.inside next u hadj.symm
      obtain ⟨path, hlength, hnodes, hpath⟩ := ih hinside hnext (by omega)
      refine ⟨next :: path, by rw [List.length_cons, hlength], fun w hw => ?_, hforwards, hpath⟩
      rcases List.mem_cons.mp hw with rfl | hw
      · exact hinside
      · exact hnodes w hw

end

/-! ## Two nodes -/

end Madoka

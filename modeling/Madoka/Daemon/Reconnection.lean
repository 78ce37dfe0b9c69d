import Madoka.Daemon.Contacts
import Madoka.Daemon.PeerBlocks
import Madoka.Lib.Run
import Madoka.Network.Join

/-!
# Reconnection

A peer comes back while the session it had before is still being cleaned up:
`remove_session` of the old session and the life of the new one up to
`bind_session` (`core/daemon.cpp`), each locked block a step, in any order.
-/

namespace Madoka

open Octets DistanceVector

/-! ## The two workers -/

/-- Where `remove_session` stands, with `deactivate_neighbor` in it. -/
inductive RemovalAt where
  | erase
  | look (peerId : NodeId)
  | mark (peerId : NodeId)
  | drop (peerId : NodeId)
  | copy
  | install (peers : List Peer)
  | done
deriving DecidableEq

/-- Where the new session stands: `register_session`, the admission, the touch
that every admitted message makes, `bind_session`, `activate_neighbor`. -/
inductive BindingAt where
  | register
  | admission
  | touch
  | touchCopy
  | touchInstall (peers : List Peer)
  | bind
  | trusted
  | activate (timestamp : Nat)
  | copy
  | install (peers : List Peer)
  | bound
  | closed
deriving DecidableEq

/-- What the two workers share, and where each of them is. -/
structure ReconnectState where
  sessions : List AppPeerSession
  trust : TrustState
  directory : Directory
  topology : Topology
  advertisements : RouteAdvertisements
  table : RouteTable
  removal : RemovalAt
  binding : BindingAt

/-- The old session, the new one with the peer TLS has authenticated for it,
and the JOIN_REQUEST that it brings. -/
structure Reconnect where
  network : IPv6
  localId : NodeId
  old : Nat
  session : AppPeerSession
  peerId : NodeId
  peerKey : PublicKey
  request : JoinRequest
  nowSeconds : UInt64
  answers : AdmissionAnswers

inductive ReconnectWorker where
  | removal
  | binding
deriving DecidableEq

variable (x : External) (c : Reconnect)

def removalStep (s : ReconnectState) (now : Nat) : ReconnectState :=
  match s.removal with
  | .erase =>
      match eraseSession s.sessions c.old with
      | (sessions, none) => { s with sessions := sessions, removal := .done }
      | (sessions, some peerId) => { s with sessions := sessions, removal := .look peerId }
  | .look peerId =>
      { s with removal := if anotherSession s.sessions peerId then .done else .mark peerId }
  | .mark peerId =>
      { s with topology := deactivateBlock s.topology peerId, removal := .drop peerId }
  | .drop peerId => { s with advertisements := s.advertisements.erase peerId, removal := .copy }
  | .copy => { s with removal := .install s.topology }
  | .install peers =>
      { s with table := rebuildRoutingTable peers s.advertisements now, removal := .done }
  | .done => s

/-- A refusal closes the session, and it does not get bound. Between the touch
and the binding the reply is sent, which may fail and close it as well. -/
def bindingStep (s : ReconnectState) (now : Nat) : ReconnectState :=
  match s.binding with
  | .register =>
      match registerSession s.sessions c.session with
      | none => { s with binding := .closed }
      | some sessions => { s with sessions := sessions, binding := .admission }
  | .admission =>
      if !joinRequestValid x c.network c.peerId c.peerKey c.request then
        { s with binding := .closed }
      else
        match admitJoin x c.network c.localId s.trust s.directory c.request c.nowSeconds
            c.answers with
        | (admitted, trust, directory) =>
            { s with
              trust := trust
              directory := directory
              binding := if admitted then .touch else .closed }
  | .touch =>
      let (topology, becameConnected) := touchBlock s.topology c.peerId now
      { s with topology := topology, binding := if becameConnected then .touchCopy else .bind }
  | .touchCopy => { s with binding := .touchInstall s.topology }
  | .touchInstall peers =>
      { s with table := rebuildRoutingTable peers s.advertisements now, binding := .bind }
  | .bind =>
      { s with
        binding := if bindAllowed s.sessions c.session (some c.peerId) (requestContact c.request)
          then .trusted else .closed }
  | .trusted =>
      { s with
        binding := if mayActivate c.network c.localId s.trust (requestContact c.request)
          then .activate now else .closed }
  | .activate timestamp =>
      match activateBlock s.topology (requestContact c.request) timestamp with
      | none => { s with binding := .closed }
      | some topology => { s with topology := topology, binding := .copy }
  | .copy => { s with binding := .install s.topology }
  | .install peers =>
      { s with table := rebuildRoutingTable peers s.advertisements now, binding := .bound }
  | .bound | .closed => s

/-- One block of one of the workers, at a time of the steady clock. -/
def reconnectionStep (s : ReconnectState) (block : ReconnectWorker × Nat) : ReconnectState :=
  match block.1 with
  | .removal => removalStep c s block.2
  | .binding => bindingStep x c s block.2

/-! ## What may go wrong -/

/-- The topology block of `activate_neighbor` is over. -/
def BindingAt.activated : BindingAt → Bool
  | .copy | .install _ | .bound => true
  | _ => false

/-- The clean-up installs no table any more, once the new session is bound. -/
def RemovalAt.settled : RemovalAt → Bool
  | .erase | .look _ | .done => true
  | _ => false

/-- The blocks that undo the new session: the mark after its activation, and
the last of the installs when its copy of the topology, at that time, gives
the peer no direct route. -/
def KeepsReconnected (s : ReconnectState) (block : ReconnectWorker × Nat) : Prop :=
  match block.1, s.removal, s.binding with
  | .removal, .mark _, binding => binding.activated = false
  | .removal, .install peers, .bound =>
      GetsDirectRoute peers s.advertisements c.peerId block.2
  | .binding, removal, .install peers =>
      removal.settled → GetsDirectRoute peers s.advertisements c.peerId block.2
  | _, _, _ => True

/-- What the new session has achieved so far is still there. -/
structure ReconnectKept (s : ReconnectState) : Prop where
  connected : s.binding.activated → isConnected s.topology c.peerId
  direct : s.binding = .bound → s.removal.settled → HasDirectRoute s.table c.peerId

/-! ## The invariant -/

def RemovalAt.Sound : RemovalAt → Prop
  | .look peerId | .mark peerId | .drop peerId => peerId = c.peerId
  | .install peers => TopologySound c.network peers
  | _ => True

/-- From its registration on the new session is in the list, and from the
admission on the request is known to be its peer's. -/
def BindingAt.Sound (sessions : List AppPeerSession) : BindingAt → Prop
  | .register | .closed => True
  | .admission => c.session ∈ sessions
  | .activate _ =>
      c.session ∈ sessions ∧ c.request.nodeId = c.peerId ∧ c.peerId ≠ zero 32
        ∧ c.request.virtualAddress = virtualAddress c.network c.peerId
  | .install peers =>
      c.session ∈ sessions ∧ c.request.nodeId = c.peerId ∧ TopologySound c.network peers
  | _ => c.session ∈ sessions ∧ c.request.nodeId = c.peerId

structure ReconnectSound (s : ReconnectState) : Prop where
  topology : TopologySound c.network s.topology
  advertisements : AdsNamed s.advertisements
  old : ∀ e ∈ s.sessions, e.serial = c.old → e.peerId = some c.peerId
  removal : s.removal.Sound c
  binding : s.binding.Sound c s.sessions

variable {x c} {s : ReconnectState} {now : Nat}

theorem BindingAt.Sound.mono {binding : BindingAt} {sessions sessions' : List AppPeerSession}
    (h : binding.Sound c sessions) (hsub : c.session ∈ sessions → c.session ∈ sessions') :
    binding.Sound c sessions' := by
  cases binding with
  | register => trivial
  | closed => trivial
  | admission => exact hsub h
  | activate timestamp => exact ⟨hsub h.1, h.2⟩
  | install peers => exact ⟨hsub h.1, h.2⟩
  | _ => exact ⟨hsub h.1, h.2⟩

theorem AdsNamed.erase {ads : RouteAdvertisements} (h : AdsNamed ads) (id : NodeId) :
    AdsNamed (ads.erase id) := by
  intro n stored hlookup
  by_cases hn : n = id
  · rw [hn, AList.lookup_erase] at hlookup
    cases hlookup
  · rw [AList.lookup_erase_ne hn] at hlookup
    exact h n stored hlookup

theorem reconnectSound_removal (hserial : c.session.serial ≠ c.old) (h : ReconnectSound c s) :
    ReconnectSound c (removalStep c s now) := by
  have hremoval := h.removal
  unfold removalStep
  cases hat : s.removal with
  | erase =>
      unfold eraseSession
      cases hfind : s.sessions.find? fun existing => existing.serial = c.old with
      | none => exact { h with removal := trivial }
      | some found =>
          have hsome := h.old found (List.mem_of_find?_eq_some hfind)
            (by simpa using List.find?_some hfind)
          dsimp only
          rw [hsome]
          exact
            { h with
              old := fun e he => h.old e (List.mem_of_mem_eraseP he)
              removal := rfl
              binding := h.binding.mono fun hmem =>
                (List.mem_eraseP_of_neg (by simpa using hserial)).mpr hmem }
  | look peerId =>
      rw [hat] at hremoval
      refine { h with removal := ?_ }
      dsimp only
      split
      · trivial
      · exact hremoval
  | mark peerId =>
      rw [hat] at hremoval
      exact { h with topology := h.topology.deactivateBlock peerId, removal := hremoval }
  | drop peerId =>
      exact { h with advertisements := h.advertisements.erase peerId, removal := trivial }
  | copy => exact { h with removal := h.topology }
  | install peers => exact { h with removal := trivial }
  | done => exact h

theorem reconnectSound_binding (hpeer : c.session.peerId = some c.peerId)
    (h : ReconnectSound c s) : ReconnectSound c (bindingStep x c s now) := by
  have hbinding := h.binding
  unfold bindingStep
  cases hat : s.binding with
  | register =>
      dsimp only
      cases hregister : registerSession s.sessions c.session with
      | none => exact { h with binding := trivial }
      | some sessions =>
          have hsessions : sessions = s.sessions ++ [c.session] := by
            unfold registerSession at hregister
            rw [hpeer] at hregister
            dsimp only at hregister
            split_ifs at hregister
            exact (Option.some.inj hregister).symm
          have hmem : c.session ∈ sessions := by simp [hsessions]
          refine { h with old := ?_, binding := hmem }
          intro e he hserial
          rw [hsessions, List.mem_append, List.mem_singleton] at he
          rcases he with he | rfl
          · exact h.old e he hserial
          · exact hpeer
  | admission =>
      rw [hat] at hbinding
      dsimp only
      split
      · exact { h with binding := trivial }
      · next hvalid =>
          have hnamed : c.request.nodeId = c.peerId := by
            rw [Bool.not_eq_true', Bool.not_eq_false, joinRequestValid, decide_eq_true_eq] at hvalid
            exact hvalid.1
          refine { h with binding := ?_ }
          dsimp only
          split
          · exact ⟨hbinding, hnamed⟩
          · trivial
  | touch =>
      rw [hat] at hbinding
      refine { h with topology := h.topology.touchBlock c.peerId now, binding := ?_ }
      dsimp only
      split <;> exact hbinding
  | touchCopy =>
      rw [hat] at hbinding
      exact { h with binding := hbinding }
  | touchInstall peers =>
      rw [hat] at hbinding
      exact { h with binding := hbinding }
  | bind =>
      rw [hat] at hbinding
      refine { h with binding := ?_ }
      dsimp only
      split
      · exact hbinding
      · trivial
  | trusted =>
      rw [hat] at hbinding
      refine { h with binding := ?_ }
      dsimp only
      split
      · next hmay =>
          obtain ⟨hid, -, -, haddress⟩ := mayActivate_iff.mp hmay
          have hid' : c.request.nodeId ≠ zero 32 := hid
          have haddress' : c.request.virtualAddress = virtualAddress c.network c.request.nodeId :=
            haddress
          rw [hbinding.2] at hid' haddress'
          exact ⟨hbinding.1, hbinding.2, hid', haddress'⟩
      · trivial
  | activate timestamp =>
      rw [hat] at hbinding
      obtain ⟨hmem, hnamed, hid, haddress⟩ := hbinding
      dsimp only
      cases hblock : activateBlock s.topology (requestContact c.request) timestamp with
      | none => exact { h with binding := trivial }
      | some topology =>
          have hid' : (requestContact c.request).id ≠ zero 32 := by
            rw [requestContact, hnamed]
            exact hid
          have haddress' : (requestContact c.request).virtualAddress
              = virtualAddress c.network (requestContact c.request).id := by
            rw [requestContact, haddress, hnamed]
          exact
            { h with
              topology := h.topology.activateBlock hid' haddress' hblock
              binding := ⟨hmem, hnamed⟩ }
  | copy =>
      rw [hat] at hbinding
      exact { h with binding := ⟨hbinding.1, hbinding.2, h.topology⟩ }
  | install peers =>
      rw [hat] at hbinding
      exact { h with binding := ⟨hbinding.1, hbinding.2.1⟩ }
  | bound => exact h
  | closed => exact h

/-! ## What each block keeps -/

theorem reconnectKept_iff : ReconnectKept c s ↔
    (s.binding.activated → isConnected s.topology c.peerId)
      ∧ (s.binding = .bound → s.removal.settled → HasDirectRoute s.table c.peerId) :=
  ⟨fun h => ⟨h.connected, h.direct⟩, fun h => ⟨h.1, h.2⟩⟩

/-- Before the activation there is nothing to undo. -/
theorem reconnectKept_of_not_activated (h : s.binding.activated = false) : ReconnectKept c s where
  connected hactivated := by
    rw [h] at hactivated
    cases hactivated
  direct hbound := by
    rw [hbound] at h
    cases h

theorem isConnected_deactivateBlock {topo : Topology} {id : NodeId}
    (hdistinct : (topo.map Peer.id).Nodup) : isConnected (deactivateBlock topo id) id = false := by
  have hid : ∀ p : Peer, p.disconnect.id = p.id := fun _ => rfl
  have hdistinct' : ((topo.map (changeAt id Peer.disconnect)).map Peer.id).Nodup := by
    rw [map_id_map (changeAt_id hid)]
    exact hdistinct
  rw [deactivateBlock_eq hdistinct, isConnected_eq_any hdistinct', topologyFindPeer_changeAt hid]
  cases topologyFindPeer topo id <;> simp [Peer.disconnect]

/-- A bound session is still in the list. -/
theorem ReconnectSound.anotherSession (h : ReconnectSound c s)
    (hpeer : c.session.peerId = some c.peerId) (hbound : s.binding = .bound) :
    anotherSession s.sessions c.peerId = true := by
  have hbinding := h.binding
  rw [hbound] at hbinding
  exact List.any_eq_true.mpr ⟨c.session, hbinding.1, by simpa using hpeer⟩

theorem reconnectKept_removal (hpeer : c.session.peerId = some c.peerId)
    (h : ReconnectSound c s) :
    ReconnectKept c (removalStep c s now)
      ↔ ReconnectKept c s ∧ KeepsReconnected c s (.removal, now) := by
  have hremoval := h.removal
  simp only [reconnectKept_iff]
  unfold removalStep
  cases hat : s.removal with
  | erase =>
      rcases eraseSession s.sessions c.old with ⟨sessions, _ | peerId⟩ <;>
        simp [KeepsReconnected, hat, RemovalAt.settled]
  | look peerId =>
      rw [hat] at hremoval
      have hpeerId : peerId = c.peerId := hremoval
      subst hpeerId
      by_cases hanother : anotherSession s.sessions c.peerId = true
      · simp [KeepsReconnected, hat, RemovalAt.settled, hanother]
      · have hnot : s.binding ≠ .bound := fun hbound => hanother (h.anotherSession hpeer hbound)
        simp [KeepsReconnected, hat, hnot]
  | mark peerId =>
      rw [hat] at hremoval
      have hpeerId : peerId = c.peerId := hremoval
      subst hpeerId
      have hmarked : isConnected (deactivateBlock s.topology c.peerId) c.peerId = false :=
        isConnected_deactivateBlock h.topology.distinct
      cases hactivated : s.binding.activated with
      | true => simp [KeepsReconnected, hat, hactivated, hmarked]
      | false => simp [KeepsReconnected, hat, hactivated, RemovalAt.settled]
  | drop peerId => simp [KeepsReconnected, hat, RemovalAt.settled]
  | copy => simp [KeepsReconnected, hat, RemovalAt.settled]
  | install peers =>
      rw [hat] at hremoval
      have hdirect : HasDirectRoute (rebuildRoutingTable peers s.advertisements now) c.peerId
          ↔ GetsDirectRoute peers s.advertisements c.peerId now :=
        rebuild_hasDirectRoute_iff hremoval h.advertisements
      by_cases hbound : s.binding = .bound
      · simp [KeepsReconnected, hat, hbound, RemovalAt.settled, hdirect]
      · simp [KeepsReconnected, hat, hbound]
  | done => simp [KeepsReconnected, hat]

theorem reconnectKept_binding (h : ReconnectSound c s) :
    ReconnectKept c (bindingStep x c s now)
      ↔ ReconnectKept c s ∧ KeepsReconnected c s (.binding, now) := by
  have hbinding := h.binding
  -- up to the activation nothing can be undone, before the block or after it
  have hbefore : s.binding.activated = false → (bindingStep x c s now).binding.activated = false →
      (ReconnectKept c (bindingStep x c s now)
        ↔ ReconnectKept c s ∧ KeepsReconnected c s (.binding, now)) := by
    intro hactivated hactivated'
    refine iff_of_true (reconnectKept_of_not_activated hactivated')
      ⟨reconnectKept_of_not_activated hactivated, ?_⟩
    unfold KeepsReconnected
    cases hat : s.binding <;> simp_all [BindingAt.activated]
  cases hat : s.binding with
  | register =>
      refine hbefore (by rw [hat]; rfl) ?_
      unfold bindingStep
      cases registerSession s.sessions c.session <;> simp [hat, BindingAt.activated]
  | admission =>
      refine hbefore (by rw [hat]; rfl) ?_
      simp only [bindingStep, hat]
      split_ifs <;> simp [BindingAt.activated]
  | touch =>
      refine hbefore (by rw [hat]; rfl) ?_
      simp only [bindingStep, hat]
      split_ifs <;> rfl
  | touchCopy => exact hbefore (by rw [hat]; rfl) (by simp [bindingStep, hat, BindingAt.activated])
  | touchInstall peers =>
      exact hbefore (by rw [hat]; rfl) (by simp [bindingStep, hat, BindingAt.activated])
  | bind =>
      refine hbefore (by rw [hat]; rfl) ?_
      simp only [bindingStep, hat]
      split_ifs <;> rfl
  | trusted =>
      refine hbefore (by rw [hat]; rfl) ?_
      simp only [bindingStep, hat]
      split_ifs <;> rfl
  | activate timestamp =>
      rw [hat] at hbinding
      cases hblock : activateBlock s.topology (requestContact c.request) timestamp with
      | none =>
          exact hbefore (by rw [hat]; rfl) (by simp [bindingStep, hat, hblock, BindingAt.activated])
      | some topology =>
          obtain ⟨p, hp, hstate, -⟩ := activateBlock_find h.topology.distinct hblock
          have hnamed : (requestContact c.request).id = c.peerId := hbinding.2.1
          rw [hnamed] at hp
          have hconnected : isConnected topology c.peerId = true := by
            obtain ⟨hmem, hid⟩ := topologyFindPeer_mem hp
            exact isConnected_iff.mpr ⟨p, hmem, hid, hstate⟩
          simp [reconnectKept_iff, bindingStep, hat, hblock, KeepsReconnected, BindingAt.activated,
            hconnected]
  | copy => simp [reconnectKept_iff, bindingStep, hat, KeepsReconnected, BindingAt.activated]
  | install peers =>
      rw [hat] at hbinding
      have hdirect : HasDirectRoute (rebuildRoutingTable peers s.advertisements now) c.peerId
          ↔ GetsDirectRoute peers s.advertisements c.peerId now :=
        rebuild_hasDirectRoute_iff hbinding.2.2 h.advertisements
      simp [reconnectKept_iff, bindingStep, hat, KeepsReconnected, BindingAt.activated, hdirect]
  | bound => simp [bindingStep, hat, KeepsReconnected]
  | closed => simp [bindingStep, hat, KeepsReconnected]

/-! ## Whole runs -/

/-- Before the two workers start: the old session, closed, may still be in the
list. -/
structure ReconnectStart (c : Reconnect) (s : ReconnectState) : Prop where
  topology : TopologySound c.network s.topology
  advertisements : AdsNamed s.advertisements
  old : ∀ e ∈ s.sessions, e.serial = c.old → e.peerId = some c.peerId
  removal : s.removal = .erase
  binding : s.binding = .register

theorem ReconnectStart.sound (h : ReconnectStart c s) : ReconnectSound c s where
  topology := h.topology
  advertisements := h.advertisements
  old := h.old
  removal := by
    rw [h.removal]
    trivial
  binding := by
    rw [h.binding]
    trivial

theorem reconnectSound_step (hpeer : c.session.peerId = some c.peerId)
    (hserial : c.session.serial ≠ c.old) (s : ReconnectState) (block : ReconnectWorker × Nat)
    (h : ReconnectSound c s) : ReconnectSound c (reconnectionStep x c s block) := by
  obtain ⟨worker, now⟩ := block
  cases worker with
  | removal => exact reconnectSound_removal hserial h
  | binding => exact reconnectSound_binding hpeer h

theorem reconnectKept_step (hpeer : c.session.peerId = some c.peerId) (s : ReconnectState)
    (block : ReconnectWorker × Nat) (h : ReconnectSound c s) :
    ReconnectKept c (reconnectionStep x c s block)
      ↔ ReconnectKept c s ∧ KeepsReconnected c s block := by
  obtain ⟨worker, now⟩ := block
  cases worker with
  | removal => exact reconnectKept_removal hpeer h
  | binding => exact reconnectKept_binding h

/-- When the old session is removed and the new one bound, the peer is
connected and reached directly exactly when no block of the run undid it. -/
theorem reconnected_iff (x : External) (c : Reconnect) {s : ReconnectState}
    (hpeer : c.session.peerId = some c.peerId) (hserial : c.session.serial ≠ c.old)
    (hstart : ReconnectStart c s) (blocks : List (ReconnectWorker × Nat))
    (hremoved : (Run.final (reconnectionStep x c) s blocks).removal = .done)
    (hbound : (Run.final (reconnectionStep x c) s blocks).binding = .bound) :
    (isConnected (Run.final (reconnectionStep x c) s blocks).topology c.peerId = true
        ∧ HasDirectRoute (Run.final (reconnectionStep x c) s blocks).table c.peerId)
      ↔ Run.Along (reconnectionStep x c) (KeepsReconnected c) s blocks := by
  have hkept : ReconnectKept c (Run.final (reconnectionStep x c) s blocks)
      ↔ ReconnectKept c s ∧ Run.Along (reconnectionStep x c) (KeepsReconnected c) s blocks :=
    Run.final_iff_along (reconnectSound_step hpeer hserial) (reconnectKept_step hpeer) hstart.sound
  have hfirst : ReconnectKept c s :=
    reconnectKept_of_not_activated (by rw [hstart.binding]; rfl)
  rw [reconnectKept_iff, hbound, hremoved] at hkept
  simpa [BindingAt.activated, RemovalAt.settled, hfirst] using hkept

/-! ## Two orders -/

/-- A trusted peer that returns without an invitation. -/
def returningPeer : Reconnect where
  network := sampleNetwork
  localId := sampleInviter
  old := 0
  session := { serial := 1, peerId := some (numberedPeer 1).id, isOpen := true }
  peerId := (numberedPeer 1).id
  peerKey := (numberedPeer 1).publicKey
  request := { sampleRequest (numberedPeer 1) with inviteToken := [] }
  nowSeconds := 100
  answers := sampleAnswers none

/-- Its old session has just been closed. -/
def beforeReturn : ReconnectState where
  sessions := [{ serial := 0, peerId := some (numberedPeer 1).id, isOpen := false }]
  trust := { directory := trustDirectory (ascii "identity"), peers := [numberedPeer 1] }
  directory := ∅
  topology := [(trustedContact sampleNetwork (numberedPeer 1)).joined 900]
  advertisements := ∅
  table := []
  removal := .erase
  binding := .register

theorem reconnectStart_beforeReturn : ReconnectStart returningPeer beforeReturn where
  topology :=
    { named := by decide
      distinct := by decide
      addressed := by decide
      bounded := by decide }
  advertisements := by
    intro n stored hlookup
    cases hlookup
  old := by decide
  removal := rfl
  binding := rfl

/-- The clean-up is over before the new session is registered. -/
def cleanUpFirst : List (ReconnectWorker × Nat) :=
  List.replicate 6 (.removal, 1000) ++ List.replicate 10 (.binding, 1000)

theorem reconnected_iff_cleanUpFirst :
    Run.Along (reconnectionStep posix returningPeer) (KeepsReconnected returningPeer) beforeReturn
      cleanUpFirst := by
  have hended : (Run.final (reconnectionStep posix returningPeer) beforeReturn cleanUpFirst).removal
        = .done
      ∧ (Run.final (reconnectionStep posix returningPeer) beforeReturn cleanUpFirst).binding
        = .bound := by
    decide +kernel
  refine (reconnected_iff posix returningPeer rfl (by decide) reconnectStart_beforeReturn _
    hended.1 hended.2).mp ?_
  decide +kernel

/-- The clean-up has looked for another session and found none; then the peer
returns, and the clean-up goes on. -/
def returnBetween : List (ReconnectWorker × Nat) :=
  List.replicate 2 (.removal, 1000) ++ List.replicate 8 (.binding, 1000)
    ++ List.replicate 4 (.removal, 1000)

theorem cleanUp_undoes_return :
    ¬ ∀ (x : External) (c : Reconnect) (s : ReconnectState), c.session.peerId = some c.peerId →
      c.session.serial ≠ c.old → ReconnectStart c s →
      ∀ blocks : List (ReconnectWorker × Nat), (blocks.map Prod.snd).Pairwise (· ≤ ·) →
        (Run.final (reconnectionStep x c) s blocks).removal = .done →
        (Run.final (reconnectionStep x c) s blocks).binding = .bound →
        isConnected (Run.final (reconnectionStep x c) s blocks).topology c.peerId = true
          ∧ HasDirectRoute (Run.final (reconnectionStep x c) s blocks).table c.peerId := by
  intro h
  have hended : (Run.final (reconnectionStep posix returningPeer) beforeReturn returnBetween).removal
        = .done
      ∧ (Run.final (reconnectionStep posix returningPeer) beforeReturn returnBetween).binding
        = .bound
      ∧ isConnected
          (Run.final (reconnectionStep posix returningPeer) beforeReturn returnBetween).topology
          returningPeer.peerId = false := by
    decide +kernel
  have hconnected := (h posix returningPeer beforeReturn rfl (by decide)
    reconnectStart_beforeReturn returnBetween (by decide) hended.1 hended.2.1).1
  rw [hended.2.2] at hconnected
  cases hconnected

end Madoka

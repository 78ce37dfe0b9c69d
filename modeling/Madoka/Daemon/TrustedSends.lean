import Madoka.Daemon.Invitations
import Madoka.Daemon.PeerBlocks
import Madoka.Daemon.SessionLoop
import Madoka.Network.Refusals

/-!
# Trusted Sends

To whom the daemon sends HELLO, ROUTE_ADVERTISEMENT and Data messages. The
senders never look at the trust store: they take the sessions whose peers the
topology holds alive (`active_sessions`, `find_session_by_next_hop` of
`core/daemon.cpp`). Each locked block is a step, and any number of workers
take their steps in any order.
-/

namespace Madoka

open Octets

/-! ## The workers -/

inductive OverlaySend where
  | hello
  | routeAdvertisement
  | data
deriving DecidableEq

/-- What a worker holds between two of its blocks. -/
inductive WorkerPhase where
  | idle
  /-- `activate_neighbor` past its look at the trust store. -/
  | activating (contact : NodeContact)
  /-- `active_sessions`, with the sessions still to look at and those kept. -/
  | filtering (now : Nat) (rest kept : List AppPeerSession)
  /-- The loop of `routing_loop` over the active sessions. -/
  | telling (chosen : List AppPeerSession)
  /-- `find_session_by_next_hop`, with the sessions still to look at. -/
  | seeking (nextHop : NodeId) (rest : List AppPeerSession)
  | found (session : AppPeerSession)
deriving DecidableEq

structure Workers where
  trust : TrustState
  directory : Directory
  topology : Topology
  sessions : List AppPeerSession
  phase : Nat → WorkerPhase

/-- The steps. What a socket answers to `transport_is_open` comes with the
step. -/
inductive WorkerBlock where
  | accept (serial : Nat)
  | connect (serial : Nat) (expected : NodeId)
  | remove (serial : Nat)
  | admission (request : JoinRequest) (nowSeconds : UInt64) (answers : AdmissionAnswers)
  | enter (peer : TrustedPeer) (answers : TrustAddAnswers)
  | check (worker : Nat) (contact : NodeContact)
  | activate (worker : Nat) (timestamp : Nat)
  | deactivate (id : NodeId)
  | touch (id : NodeId) (now : Nat)
  | hello (message : HelloMessage) (now : Nat)
  | prune (now : Nat)
  | collect (worker : Nat) (now : Nat)
  | examine (worker : Nat) (isOpen : Bool)
  | tell (worker : Nat) (message : OverlaySend)
  | next (worker : Nat)
  | seek (worker : Nat) (nextHop : NodeId)
  | probe (worker : Nat) (isOpen : Bool) (now : Nat)
  | transmit (worker : Nat)

/-- The topology holds the peer alive. -/
def holdsAlive (topo : Topology) (id : NodeId) (now : Nat) : Bool :=
  (topologyFindPeer topo id).any fun peer => peerIsAlive peer now peerTimeoutMs

variable (x : External) (network : IPv6) (localId : NodeId)

-- the identity that TLS has authenticated, for each connection
variable (authenticated : Nat → NodeId)

/-- `accept_loop`: an accepted session is its authenticated peer's. -/
def acceptedSession (serial : Nat) : AppPeerSession where
  serial := serial
  peerId := some (authenticated serial)
  isOpen := true

/-- `transport_connect_tls` and its callers, which refuse every peer but the
expected one. -/
def connectedSession (serial : Nat) (expected : NodeId) : Option AppPeerSession :=
  if authenticated serial ≠ expected then none
  else some { serial := serial, peerId := some expected, isOpen := true }

def Workers.register (s : Workers) (session : AppPeerSession) : Workers :=
  { s with sessions := (registerSession s.sessions session).getD s.sessions }

def Workers.enters (s : Workers) (worker : Nat) (phase : WorkerPhase) : Workers :=
  { s with phase := Function.update s.phase worker phase }

/-- One look of `active_sessions` at a session. -/
def keepsActive (topo : Topology) (session : AppPeerSession) (isOpen : Bool) (now : Nat) : Bool :=
  match session.peerId with
  | none => false
  | some id => isOpen && holdsAlive topo id now

def workerStep (s : Workers) : WorkerBlock → Workers
  | .accept serial => s.register (acceptedSession authenticated serial)
  | .connect serial expected =>
      match connectedSession authenticated serial expected with
      | none => s
      | some session => s.register session
  | .remove serial => { s with sessions := (eraseSession s.sessions serial).1 }
  | .admission request nowSeconds answers =>
      let result := admitJoin x network localId s.trust s.directory request nowSeconds answers
      { s with trust := result.2.1, directory := result.2.2 }
  | .enter peer answers =>
      let result := trustAdd x s.trust s.directory peer answers
      { s with trust := result.2.1, directory := result.2.2 }
  | .check worker contact =>
      match s.phase worker with
      | .idle =>
          if mayActivate network localId s.trust contact then s.enters worker (.activating contact)
          else s
      | _ => s
  | .activate worker timestamp =>
      match s.phase worker with
      | .activating contact =>
          { s.enters worker .idle with
            topology := (activateBlock s.topology contact timestamp).getD s.topology }
      | _ => s
  | .deactivate id => { s with topology := deactivateBlock s.topology id }
  | .touch id now => { s with topology := (touchBlock s.topology id now).1 }
  | .hello message now => { s with topology := (heartbeatProcessHello s.topology message now).2 }
  | .prune now => { s with topology := (topologyPruneStale s.topology now peerTimeoutMs).1 }
  | .collect worker now =>
      match s.phase worker with
      | .idle => s.enters worker (.filtering now s.sessions [])
      | _ => s
  | .examine worker isOpen =>
      match s.phase worker with
      | .filtering _ [] kept => s.enters worker (.telling kept)
      | .filtering now (session :: rest) kept =>
          s.enters worker (.filtering now rest
            (if keepsActive s.topology session isOpen now then kept ++ [session] else kept))
      | _ => s
  | .tell _ _ => s
  | .next worker =>
      match s.phase worker with
      | .telling [] => s.enters worker .idle
      | .telling (_ :: chosen) => s.enters worker (.telling chosen)
      | _ => s
  | .seek worker nextHop =>
      match s.phase worker with
      | .idle => s.enters worker (.seeking nextHop s.sessions)
      | _ => s
  | .probe worker isOpen now =>
      match s.phase worker with
      | .seeking _ [] => s.enters worker .idle
      | .seeking nextHop (session :: rest) =>
          if session.peerId = some nextHop ∧ isOpen ∧ holdsAlive s.topology nextHop now then
            s.enters worker (.found session)
          else s.enters worker (.seeking nextHop rest)
      | _ => s
  | .transmit worker =>
      match s.phase worker with
      | .found _ => s.enters worker .idle
      | _ => s

/-- What a step sends of the three kinds, and on which session. -/
def Workers.sends (s : Workers) : WorkerBlock → Option (OverlaySend × AppPeerSession)
  | .tell worker message =>
      match s.phase worker with
      | .telling (session :: _) => some (message, session)
      | _ => none
  | .transmit worker =>
      match s.phase worker with
      | .found session => some (.data, session)
      | _ => none
  | _ => none

/-! ## The invariant -/

/-- A session registered under its authenticated identity. -/
def Named (session : AppPeerSession) : Prop :=
  session.peerId = some (authenticated session.serial)

/-- A session whose authenticated peer is trusted. -/
def MaySend (trust : TrustState) (session : AppPeerSession) : Prop :=
  trustContains trust (authenticated session.serial) = true

def WorkerPhase.Sound (trust : TrustState) : WorkerPhase → Prop
  | .idle => True
  | .activating contact => trustContains trust contact.id = true
  | .filtering _ rest kept =>
      (∀ e ∈ rest, Named authenticated e) ∧ ∀ e ∈ kept, MaySend authenticated trust e
  | .telling chosen => ∀ e ∈ chosen, MaySend authenticated trust e
  | .seeking _ rest => ∀ e ∈ rest, Named authenticated e
  | .found session => MaySend authenticated trust session

/-- The topology has trusted peers only, and what a worker has taken from it
stays true, for trust only grows. -/
structure WorkersSound (s : Workers) : Prop where
  sorted : LowerBound.Sorted TrustedPeer.id s.trust.peers
  topology : ∀ id ∈ s.topology.map Peer.id, trustContains s.trust id = true
  sessions : ∀ e ∈ s.sessions, Named authenticated e
  phase : ∀ worker, (s.phase worker).Sound authenticated s.trust

/-- The trust store is sorted still, and trusts whom it trusted. -/
structure TrustGrows (trust trust' : TrustState) : Prop where
  sorted : LowerBound.Sorted TrustedPeer.id trust'.peers
  keeps : ∀ id, trustContains trust id = true → trustContains trust' id = true

variable {x network localId authenticated} {s : Workers}

/-! ## Trust -/

theorem TrustGrows.refl {trust : TrustState}
    (hsorted : LowerBound.Sorted TrustedPeer.id trust.peers) : TrustGrows trust trust :=
  ⟨hsorted, fun _ h => h⟩

theorem trustGrows_put {trust trust' : TrustState} {peer : TrustedPeer}
    (hsorted : LowerBound.Sorted TrustedPeer.id trust.peers)
    (h : trust'.peers = LowerBound.put TrustedPeer.id peer trust.peers) :
    TrustGrows trust trust' := by
  have hsorted' : LowerBound.Sorted TrustedPeer.id trust'.peers := by
    rw [h]
    exact LowerBound.put_sorted hsorted peer
  refine ⟨hsorted', fun id hid => ?_⟩
  rw [trustContains_iff hsorted] at hid
  rw [trustContains_iff hsorted', h]
  obtain ⟨known, hknown, rfl⟩ := hid
  by_cases hsame : known.id = peer.id
  · exact ⟨peer, (LowerBound.mem_put hsorted).mpr (.inl rfl), hsame.symm⟩
  · exact ⟨known, (LowerBound.mem_put hsorted).mpr (.inr ⟨hknown, hsame⟩), rfl⟩

theorem trustGrows_admitJoin {trust : TrustState} {d : Directory} {request : JoinRequest}
    {nowSeconds : UInt64} {answers : AdmissionAnswers}
    (hsorted : LowerBound.Sorted TrustedPeer.id trust.peers) :
    TrustGrows trust (admitJoin x network localId trust d request nowSeconds answers).2.1 := by
  rcases admitJoin_cases (x := x) network localId trust d request nowSeconds answers with
    ⟨-, hsame⟩ | ⟨-, -, -, -, hput⟩
  · rw [hsame]
    exact .refl hsorted
  · exact trustGrows_put hsorted hput

theorem trustGrows_trustAdd {trust : TrustState} {d : Directory} {peer : TrustedPeer}
    {answers : TrustAddAnswers} (hsorted : LowerBound.Sorted TrustedPeer.id trust.peers) :
    TrustGrows trust (trustAdd x trust d peer answers).2.1 := by
  rcases trustAdd_cases x trust d peer answers with ⟨e, -, hsame, -⟩ | ⟨-, -, -, -, hadd⟩
  · rw [hsame]
    exact .refl hsorted
  · rw [hadd]
    exact trustGrows_put hsorted rfl

theorem WorkerPhase.Sound.grows {trust trust' : TrustState} {phase : WorkerPhase}
    (h : phase.Sound authenticated trust) (hgrows : TrustGrows trust trust') :
    phase.Sound authenticated trust' := by
  cases phase with
  | idle => trivial
  | activating contact => exact hgrows.keeps _ h
  | filtering now rest kept => exact ⟨h.1, fun e he => hgrows.keeps _ (h.2 e he)⟩
  | telling chosen => exact fun e he => hgrows.keeps _ (h e he)
  | seeking nextHop rest => exact h
  | found session => exact hgrows.keeps _ h

/-- More trust spoils nothing. -/
theorem WorkersSound.grows {trust : TrustState} {directory : Directory}
    (h : WorkersSound authenticated s) (hgrows : TrustGrows s.trust trust) :
    WorkersSound authenticated { s with trust := trust, directory := directory } where
  sorted := hgrows.sorted
  topology id hid := hgrows.keeps id (h.topology id hid)
  sessions := h.sessions
  phase worker := (h.phase worker).grows hgrows

/-! ## Topology -/

section
variable {topo topo' : Topology} {id : NodeId} {now : Nat}

theorem topologyModify_ids {change : Peer → Peer} {peer : Peer}
    (h : topologyModify topo id change = some (topo', peer)) (hid : ∀ p, (change p).id = p.id) :
    topo'.map Peer.id = topo.map Peer.id := by
  obtain ⟨before, p, after, rfl, -, -, rfl, -⟩ := FirstMatch.update_eq_some h
  simp [hid]

theorem deactivateBlock_ids : (deactivateBlock topo id).map Peer.id = topo.map Peer.id := by
  unfold deactivateBlock
  split
  · rfl
  · next hmodify => exact topologyModify_ids hmodify fun _ => rfl

theorem touchBlock_ids : (touchBlock topo id now).1.map Peer.id = topo.map Peer.id := by
  unfold touchBlock
  split
  · rfl
  · next hmodify => exact topologyModify_ids hmodify fun _ => rfl

theorem heartbeatProcessHello_ids {message : HelloMessage} :
    (heartbeatProcessHello topo message now).2.map Peer.id = topo.map Peer.id := by
  unfold heartbeatProcessHello
  dsimp only
  split
  · rfl
  · next hmodify => exact topologyModify_ids hmodify fun _ => rfl

theorem topologyPruneStale_ids {timeoutMs : Nat} :
    (topologyPruneStale topo now timeoutMs).1.map Peer.id = topo.map Peer.id := by
  rw [topologyPruneStale, List.map_map]
  refine List.map_congr_left fun p _ => ?_
  simp only [Function.comp_apply]
  split <;> rfl

/-- Only an activation brings in an identifier, its contact's. -/
theorem activateBlock_ids {contact : NodeContact} {timestamp : Nat}
    (h : activateBlock topo contact timestamp = some topo') :
    ∀ id ∈ topo'.map Peer.id, id ∈ topo.map Peer.id ∨ id = contact.id := by
  intro id hid
  unfold activateBlock at h
  split at h
  · unfold topologyAddPeer at h
    split_ifs at h
    rw [← Option.some.inj h, List.map_append, List.mem_append] at hid
    exact hid.imp (fun h => h) fun h => by simpa using h
  · obtain ⟨⟨modified, peer⟩, hmodify, rfl⟩ := Option.map_eq_some_iff.mp h
    rw [topologyModify_ids hmodify fun _ => rfl] at hid
    exact .inl hid

theorem holdsAlive_ids (h : holdsAlive topo id now = true) : id ∈ topo.map Peer.id := by
  obtain ⟨p, hfind, -⟩ := (Option.any_eq_true _ _).mp h
  obtain ⟨hp, rfl⟩ := topologyFindPeer_mem hfind
  exact List.mem_map_of_mem hp

end

/-! ## Steps -/

theorem WorkersSound.withTopology {topology : Topology} (h : WorkersSound authenticated s)
    (hids : topology.map Peer.id = s.topology.map Peer.id) :
    WorkersSound authenticated { s with topology := topology } :=
  { h with
    topology := fun id hid => by
      dsimp only at hid
      rw [hids] at hid
      exact h.topology id hid }

theorem WorkersSound.enters (h : WorkersSound authenticated s) {worker : Nat}
    {phase : WorkerPhase} (hphase : phase.Sound authenticated s.trust) :
    WorkersSound authenticated (s.enters worker phase) where
  sorted := h.sorted
  topology := h.topology
  sessions := h.sessions
  phase other := by
    show (Function.update s.phase worker phase other).Sound authenticated s.trust
    by_cases hother : other = worker
    · rw [hother, Function.update_self]
      exact hphase
    · rw [Function.update_of_ne hother]
      exact h.phase other

theorem WorkersSound.register (h : WorkersSound authenticated s) {session : AppPeerSession}
    (hnamed : Named authenticated session) : WorkersSound authenticated (s.register session) := by
  refine { h with sessions := fun e he => ?_ }
  dsimp only [Workers.register] at he
  unfold registerSession at he
  rw [hnamed] at he
  dsimp only at he
  split_ifs at he
  · exact h.sessions e he
  · exact h.sessions e he
  · rcases List.mem_append.mp he with he | he
    · exact h.sessions e he
    · rw [List.mem_singleton.mp he]
      exact hnamed

/-- A session of a peer that the topology holds is a trusted peer's. -/
theorem WorkersSound.maySend (h : WorkersSound authenticated s) {session : AppPeerSession}
    {id : NodeId} {now : Nat} (hnamed : Named authenticated session)
    (hpeer : session.peerId = some id) (halive : holdsAlive s.topology id now = true) :
    MaySend authenticated s.trust session := by
  have hid : authenticated session.serial = id := Option.some.inj (hnamed.symm.trans hpeer)
  rw [MaySend, hid]
  exact h.topology id (holdsAlive_ids halive)

theorem workersSound_step (s : Workers) (block : WorkerBlock) (h : WorkersSound authenticated s) :
    WorkersSound authenticated (workerStep x network localId authenticated s block) := by
  cases block with
  | accept serial => exact h.register rfl
  | connect serial expected =>
      simp only [workerStep, connectedSession]
      by_cases hother : authenticated serial ≠ expected
      · rw [if_pos hother]
        exact h
      · rw [if_neg hother]
        exact h.register (congrArg some (not_not.mp hother).symm)
  | remove serial =>
      refine { h with sessions := fun e he => h.sessions e ?_ }
      dsimp only [workerStep, eraseSession] at he
      split at he
      · exact he
      · exact List.mem_of_mem_eraseP he
  | admission request nowSeconds answers => exact h.grows (trustGrows_admitJoin h.sorted)
  | enter peer answers => exact h.grows (trustGrows_trustAdd h.sorted)
  | check worker contact =>
      simp only [workerStep]
      split
      · split
        · next hmay => exact h.enters (mayActivate_iff.mp hmay).2.2.1
        · exact h
      · exact h
  | activate worker timestamp =>
      simp only [workerStep]
      split
      · next contact hphase =>
          have htrusted : trustContains s.trust contact.id = true := by
            have hsound := h.phase worker
            rw [hphase] at hsound
            exact hsound
          have hidle : WorkersSound authenticated (s.enters worker .idle) := h.enters trivial
          refine { hidle with topology := fun id hid => ?_ }
          dsimp only at hid
          cases hblock : activateBlock s.topology contact timestamp with
          | none =>
              rw [hblock] at hid
              exact h.topology id hid
          | some topology =>
              rw [hblock] at hid
              rcases activateBlock_ids hblock id hid with hold | rfl
              · exact h.topology id hold
              · exact htrusted
      · exact h
  | deactivate id => exact h.withTopology deactivateBlock_ids
  | touch id now => exact h.withTopology touchBlock_ids
  | hello message now => exact h.withTopology heartbeatProcessHello_ids
  | prune now => exact h.withTopology topologyPruneStale_ids
  | collect worker now =>
      simp only [workerStep]
      split
      · exact h.enters ⟨h.sessions, fun e he => absurd he List.not_mem_nil⟩
      · exact h
  | examine worker isOpen =>
      have hsound := h.phase worker
      simp only [workerStep]
      split
      · next kept hphase =>
          rw [hphase] at hsound
          exact h.enters hsound.2
      · next now session rest kept hphase =>
          rw [hphase] at hsound
          obtain ⟨hrest, hkept⟩ := hsound
          refine h.enters ⟨fun e he => hrest e (List.mem_cons_of_mem _ he), fun e he => ?_⟩
          split at he
          · next hkeeps =>
              rcases List.mem_append.mp he with he | he
              · exact hkept e he
              · rw [List.mem_singleton.mp he]
                unfold keepsActive at hkeeps
                split at hkeeps
                · cases hkeeps
                · next id hpeer =>
                    rw [Bool.and_eq_true] at hkeeps
                    exact h.maySend (hrest session List.mem_cons_self) hpeer hkeeps.2
          · exact hkept e he
      · exact h
  | tell worker message => exact h
  | next worker =>
      have hsound := h.phase worker
      simp only [workerStep]
      split
      · exact h.enters trivial
      · next session chosen hphase =>
          rw [hphase] at hsound
          exact h.enters fun e he => hsound e (List.mem_cons_of_mem _ he)
      · exact h
  | seek worker nextHop =>
      simp only [workerStep]
      split
      · exact h.enters h.sessions
      · exact h
  | probe worker isOpen now =>
      have hsound := h.phase worker
      simp only [workerStep]
      split
      · exact h.enters trivial
      · next nextHop session rest hphase =>
          rw [hphase] at hsound
          split
          · next hfound =>
              exact h.enters (h.maySend (hsound session List.mem_cons_self) hfound.1 hfound.2.2)
          · exact h.enters fun e he => hsound e (List.mem_cons_of_mem _ he)
      · exact h
  | transmit worker =>
      simp only [workerStep]
      split
      · exact h.enters trivial
      · exact h

/-! ## The session loop in blocks -/

/-- What the workers' machine has of the application state. -/
def AppState.shared (app : AppState) (phase : Nat → WorkerPhase) : Workers where
  trust := app.trust
  directory := app.directory
  topology := app.topology
  sessions := app.sessions
  phase := phase

/-- One state comes from the other by steps of the machine. -/
structure BlocksLead (x : External) (authenticated : Nat → NodeId) (phase : Nat → WorkerPhase)
    (app after : AppState) : Prop where
  network : after.network = app.network
  id : after.id = app.id
  blocks : ∃ blocks, Run.final (workerStep x app.network app.id authenticated) (app.shared phase)
    blocks = after.shared phase

section
variable {phase : Nat → WorkerPhase} {app after last : AppState} {link : SessionLink}
  {answers : FrameAnswers} {worker : Nat}

theorem BlocksLead.same (hnetwork : after.network = app.network) (hid : after.id = app.id)
    (hshared : after.shared phase = app.shared phase) :
    BlocksLead x authenticated phase app after :=
  ⟨hnetwork, hid, [], hshared.symm⟩

theorem BlocksLead.one (block : WorkerBlock) (hnetwork : after.network = app.network)
    (hid : after.id = app.id) (hstep : workerStep x app.network app.id authenticated
      (app.shared phase) block = after.shared phase) :
    BlocksLead x authenticated phase app after :=
  ⟨hnetwork, hid, [block], hstep⟩

theorem BlocksLead.trans (h : BlocksLead x authenticated phase app after)
    (h' : BlocksLead x authenticated phase after last) :
    BlocksLead x authenticated phase app last := by
  obtain ⟨blocks, hblocks⟩ := h.blocks
  obtain ⟨more, hmore⟩ := h'.blocks
  refine ⟨h'.network.trans h.network, h'.id.trans h.id, blocks ++ more, ?_⟩
  rw [h.network, h.id] at hmore
  rw [Run.final_append, hblocks, hmore]

theorem touchNeighbor_blocks (id : NodeId) :
    BlocksLead x authenticated phase app (touchNeighbor app id answers) := by
  have htouched : BlocksLead x authenticated phase app
      { app with topology := (touchBlock app.topology id answers.touchedAt).1 } :=
    .one (.touch id answers.touchedAt) rfl rfl rfl
  unfold touchNeighbor
  dsimp only
  split
  · exact htouched.trans (.same rfl rfl rfl)
  · exact htouched

theorem receiveHello_blocks {incoming : ControlMessage}
    (h : receiveHello app incoming answers = some after) :
    BlocksLead x authenticated phase app after := by
  unfold receiveHello at h
  split at h
  · cases h
  · next hello hread =>
      split at h
      · cases h
      · cases h
        exact .one (.hello hello answers.blockAt) rfl rfl rfl

theorem receiveAdvertisement_blocks {incoming : ControlMessage}
    (h : receiveAdvertisement app incoming answers = some after) :
    BlocksLead x authenticated phase app after := by
  unfold receiveAdvertisement at h
  split at h
  · cases h
  · split at h
    · cases h
    · split at h
      · cases h
      · dsimp only at h
        split at h
        · cases h
          exact .same rfl rfl rfl
        · cases h
          split <;> exact .same rfl rfl rfl

/-- The worker looks at the trust store and then writes the topology, and is
idle again. -/
theorem activateNeighbor_blocks (hidle : phase worker = .idle) (contact : NodeContact) :
    BlocksLead x authenticated phase app (activateNeighbor app contact answers).2 := by
  unfold activateNeighbor
  split
  · exact .same rfl rfl rfl
  · next hmay =>
      rw [Bool.not_eq_true', Bool.not_eq_false] at hmay
      split
      · exact .same rfl rfl rfl
      · next topology hblock =>
          refine ⟨rfl, rfl, [.check worker contact, .activate worker answers.blockAt], ?_⟩
          have hchecked : workerStep x app.network app.id authenticated (app.shared phase)
              (.check worker contact)
              = (app.shared phase).enters worker (.activating contact) := by
            simp only [workerStep, AppState.shared, hidle, hmay, if_true]
          have hback : Function.update (Function.update phase worker (.activating contact)) worker
              .idle = phase := by
            rw [Function.update_idem, ← hidle, Function.update_eq_self]
          rw [Run.final_cons, hchecked, Run.final_singleton]
          simp [workerStep, Workers.enters, AppState.shared, AppState.rebuild, hblock, hback]

theorem bindSession_blocks (hidle : phase worker = .idle) (contact : NodeContact) :
    BlocksLead x authenticated phase app (bindSession app link contact answers).2 := by
  unfold bindSession
  split
  · exact .same rfl rfl rfl
  · exact activateNeighbor_blocks hidle contact

theorem receiveContact_blocks (hidle : phase worker = .idle) (incoming : ControlMessage) :
    BlocksLead x authenticated phase app (receiveContact x app link incoming answers).app := by
  unfold receiveContact
  split
  · exact .same rfl rfl rfl
  · exact .same rfl rfl rfl
  · next contacts reply hcontact =>
      have hcontacts : BlocksLead x authenticated phase app { app with contacts := contacts } :=
        .same rfl rfl rfl
      dsimp only
      split
      · exact hcontacts
      · split
        · exact hcontacts
        · exact hcontacts.trans (bindSession_blocks hidle _)

theorem receiveTrusted_blocks (hidle : phase worker = .idle) (incoming : ControlMessage) :
    BlocksLead x authenticated phase app (receiveTrusted x app link incoming answers).app := by
  have htouched : BlocksLead x authenticated phase app
      (touchNeighbor app incoming.sender answers) := touchNeighbor_blocks _
  unfold receiveTrusted
  dsimp only
  split
  · split
    · exact htouched
    · next hhello => exact htouched.trans (receiveHello_blocks hhello)
  · split
    · exact htouched
    · next hadvertisement => exact htouched.trans (receiveAdvertisement_blocks hadvertisement)
  · exact htouched.trans (receiveContact_blocks hidle incoming)

theorem receiveJoinRequest_blocks (hidle : phase worker = .idle) (trusted : Bool)
    (incoming : ControlMessage) :
    BlocksLead x authenticated phase app
      (receiveJoinRequest x app link trusted incoming answers).app := by
  unfold receiveJoinRequest
  split
  · exact .same rfl rfl rfl
  · next request hread =>
      split
      · exact .same rfl rfl rfl
      · have hadmit : BlocksLead x authenticated phase app
            { app with
              trust := (admitJoin x app.network app.id app.trust app.directory request
                answers.nowSeconds answers.admission).2.1
              directory := (admitJoin x app.network app.id app.trust app.directory request
                answers.nowSeconds answers.admission).2.2 } :=
          .one (.admission request answers.nowSeconds answers.admission) rfl rfl rfl
        generalize admitJoin x app.network app.id app.trust app.directory request
          answers.nowSeconds answers.admission = result at hadmit ⊢
        obtain ⟨admitted, trust, directory⟩ := result
        cases admitted with
        | false => exact hadmit
        | true => exact hadmit.trans (receiveTrusted_blocks hidle incoming)

/-- What the worker of a session does to the trust store, the topology and the
session list, it does by steps of the machine. -/
theorem sessionTurn_blocks (hidle : phase worker = .idle) (sessionWorker : SessionWorker)
    (turn : SessionTurn) :
    BlocksLead x authenticated phase app (sessionTurn x app link sessionWorker turn).app := by
  have hsame : BlocksLead x authenticated phase app app := .same rfl rfl rfl
  have hframe : ∀ (trusted : Bool) (wire : Message) (answers : FrameAnswers),
      BlocksLead x authenticated phase app (receiveFrame x app link trusted wire answers).app := by
    intro trusted wire answers
    unfold receiveFrame
    split
    · split
      · exact hsame
      · exact (touchNeighbor_blocks _).trans (.same rfl rfl rfl)
    · split
      · exact hsame
      · split_ifs
        · exact hsame
        · exact hsame
        · exact receiveJoinRequest_blocks hidle trusted _
        · exact receiveTrusted_blocks hidle _
    · exact hsame
  unfold sessionTurn
  split
  · exact hsame
  · split
    · exact hsame
    · split
      · exact hsame
      · split
        · dsimp only
          split <;> exact hsame
        · exact hsame
      · dsimp only
        split
        · exact hsame
        · exact hframe _ _ _

end

/-! ## What a session's worker sends on -/

theorem touchNeighbor_ids (app : AppState) (id : NodeId) (answers : FrameAnswers) :
    (touchNeighbor app id answers).topology.map Peer.id = app.topology.map Peer.id := by
  have hids : (touchBlock app.topology id answers.touchedAt).1.map Peer.id
      = app.topology.map Peer.id := touchBlock_ids
  unfold touchNeighbor
  dsimp only
  split
  · exact hids
  · exact hids

@[simp] theorem touchNeighbor_sessions (app : AppState) (id : NodeId) (answers : FrameAnswers) :
    (touchNeighbor app id answers).sessions = app.sessions := by
  unfold touchNeighbor
  dsimp only
  split <;> rfl

/-- The next hop is a peer of the topology, and one of the sessions is its. -/
theorem findSessionByNextHop_dataNode {app : AppState} {now : Nat} {nextHop : NodeId}
    (h : (findSessionByNextHop app.dataNode now nextHop).isSome = true) :
    nextHop ∈ app.topology.map Peer.id
      ∧ ∃ session ∈ app.sessions, session.peerId = some nextHop := by
  obtain ⟨found, hfound⟩ := Option.isSome_iff_exists.mp h
  have hmem := List.mem_of_find?_eq_some hfound
  have hfits := List.find?_some hfound
  rw [decide_eq_true_eq] at hfits
  obtain ⟨hpeer, -, halive⟩ := hfits
  obtain ⟨session, hsession, rfl⟩ := List.mem_map.mp hmem
  refine ⟨?_, session, hsession, hpeer⟩
  obtain ⟨peer, hfind, -⟩ := (Option.any_eq_true _ _).mp halive
  obtain ⟨hin, rfl⟩ := topologyFindPeer_mem hfind
  exact List.mem_map_of_mem hin

section
variable {app : AppState} {link : SessionLink} {worker : SessionWorker} {turn : SessionTurn}
  {incoming : ControlMessage} {answers : FrameAnswers} {event : DataEvent}

theorem receiveContact_no_data :
    SessionEffect.data event ∉ (receiveContact x app link incoming answers).effects := by
  unfold receiveContact
  split
  · simp
  · simp
  · dsimp only
    split
    · simp
    · split <;> simp

theorem receiveTrusted_no_data :
    SessionEffect.data event ∉ (receiveTrusted x app link incoming answers).effects := by
  unfold receiveTrusted
  dsimp only
  split
  · split <;> simp
  · split <;> simp
  · exact receiveContact_no_data

theorem receiveJoinRequest_no_data {trusted : Bool} :
    SessionEffect.data event ∉ (receiveJoinRequest x app link trusted incoming answers).effects := by
  unfold receiveJoinRequest
  split
  · simp
  · split
    · simp
    · split
      · dsimp only
        split <;> simp
      · exact receiveTrusted_no_data

/-- Only a Data message on a trusted session is passed on. -/
theorem receiveFrame_data {trusted : Bool} {wire : Message}
    (h : SessionEffect.data event ∈ (receiveFrame x app link trusted wire answers).effects) :
    event ∈ (handleDataMessage (touchNeighbor app link.peer.nodeId answers).dataNode answers.data
      wire).events := by
  unfold receiveFrame at h
  split at h
  · split at h
    · cases h
    · obtain ⟨sent, hsent, heq⟩ := List.mem_map.mp h
      cases heq
      exact hsent
  · split at h
    · cases h
    · split_ifs at h
      · cases h
      · cases h
      · exact absurd h receiveJoinRequest_no_data
      · exact absurd h receiveTrusted_no_data
  · cases h

/-- What a session's worker sends on goes to a peer of the topology that has a
session in the list. -/
theorem sessionTurn_send {nextHop : NodeId} {wire : Message}
    (h : SessionEffect.data (.send nextHop wire) ∈ (sessionTurn x app link worker turn).effects) :
    nextHop ∈ app.topology.map Peer.id
      ∧ ∃ session ∈ app.sessions, session.peerId = some nextHop := by
  unfold sessionTurn at h
  split at h
  · cases h
  · split at h
    · cases h
    · split at h
      · cases h
      · split at h
        · dsimp only at h
          split at h <;> simp at h
        · cases h
      · dsimp only at h
        split at h
        · cases h
        · have hfound := findSessionByNextHop_dataNode
            (handleDataMessage_send (receiveFrame_data h))
          rw [touchNeighbor_ids, touchNeighbor_sessions] at hfound
          exact hfound

end

/-! ## The machine with whole turns -/

/-- A step of the workers' machine, or a whole turn of a session's worker. -/
inductive DaemonStep where
  | block (block : WorkerBlock)
  | turn (worker : Nat) (app : AppState) (link : SessionLink) (sessionWorker : SessionWorker)
      (turn : SessionTurn)

/-- The application state as a worker finds it. -/
def AppState.meets (app : AppState) (network : IPv6) (localId : NodeId) (s : Workers) : AppState :=
  { app with
    id := localId
    network := network
    trust := s.trust
    directory := s.directory
    topology := s.topology
    sessions := s.sessions }

variable (x network localId authenticated) in
/-- A worker takes a turn between two of its other blocks. -/
def daemonStep (s : Workers) : DaemonStep → Workers
  | .block block => workerStep x network localId authenticated s block
  | .turn worker app link sessionWorker turn =>
      match s.phase worker with
      | .idle =>
          (sessionTurn x (app.meets network localId s) link sessionWorker turn).app.shared s.phase
      | _ => s

variable (x network localId authenticated s) in
/-- A turn comes to steps of the machine. -/
theorem daemonStep_turn (worker : Nat) (app : AppState) (link : SessionLink)
    (sessionWorker : SessionWorker) (turn : SessionTurn) :
    ∃ blocks, Run.final (workerStep x network localId authenticated) s blocks
      = daemonStep x network localId authenticated s (.turn worker app link sessionWorker turn) := by
  rw [daemonStep]
  split
  · next hidle =>
      have hlead : BlocksLead x authenticated s.phase (app.meets network localId s)
          (sessionTurn x (app.meets network localId s) link sessionWorker turn).app :=
        sessionTurn_blocks hidle sessionWorker turn
      exact hlead.blocks
  · exact ⟨[], rfl⟩

theorem workersSound_daemonStep (s : Workers) (input : DaemonStep)
    (h : WorkersSound authenticated s) :
    WorkersSound authenticated (daemonStep x network localId authenticated s input) := by
  cases input with
  | block block => exact workersSound_step s block h
  | turn worker app link sessionWorker turn =>
      obtain ⟨blocks, hblocks⟩ := daemonStep_turn x network localId authenticated s worker app link
        sessionWorker turn
      rw [← hblocks]
      exact (Run.throughout_of_step workersSound_step h blocks).final

/-! ## Whole runs -/

variable (x network localId authenticated) in
/-- What a step sends goes to a session whose authenticated peer is trusted,
and what a turn sends on to a next hop all of whose sessions are such. -/
def SendsToTrusted (s : Workers) : DaemonStep → Prop
  | .block block =>
      ∀ message session, s.sends block = some (message, session) →
        MaySend authenticated s.trust session
  | .turn _ app link sessionWorker turn =>
      ∀ nextHop wire, SessionEffect.data (.send nextHop wire)
          ∈ (sessionTurn x (app.meets network localId s) link sessionWorker turn).effects →
        (∃ session ∈ s.sessions, session.peerId = some nextHop)
          ∧ ∀ session ∈ s.sessions, session.peerId = some nextHop →
            MaySend authenticated s.trust session

/-- The daemon at its start, with the trust store it has loaded. -/
def startWorkers (trust : TrustState) (directory : Directory) : Workers where
  trust := trust
  directory := directory
  topology := []
  sessions := []
  phase _ := .idle

theorem workersSound_start {trust : TrustState} {directory : Directory}
    (hsorted : LowerBound.Sorted TrustedPeer.id trust.peers) :
    WorkersSound authenticated (startWorkers trust directory) where
  sorted := hsorted
  topology id hid := by cases hid
  sessions e he := by cases he
  phase worker := trivial

theorem WorkersSound.sendsToTrusted {input : DaemonStep} (h : WorkersSound authenticated s) :
    SendsToTrusted x network localId authenticated s input := by
  cases input with
  | turn worker app link sessionWorker turn =>
      intro nextHop wire hsend
      obtain ⟨hmem, hsession⟩ := sessionTurn_send hsend
      refine ⟨hsession, fun session hin hpeer => ?_⟩
      have hid : authenticated session.serial = nextHop :=
        Option.some.inj ((h.sessions session hin).symm.trans hpeer)
      rw [MaySend, hid]
      exact h.topology nextHop hmem
  | block block =>
      intro message session hsends
      cases block with
      | tell worker kind =>
          have hsound := h.phase worker
          simp only [Workers.sends] at hsends
          split at hsends
          · next chosen hphase =>
              cases hsends
              rw [hphase] at hsound
              exact hsound session List.mem_cons_self
          · cases hsends
      | transmit worker =>
          have hsound := h.phase worker
          simp only [Workers.sends] at hsends
          split at hsends
          · next hphase =>
              cases hsends
              rw [hphase] at hsound
              exact hsound
          · cases hsends
      | _ => cases hsends

/-- A session that is not trusted is inert as long as none of its
JOIN_REQUESTs is admitted; and what the daemon sends to its neighbours goes to
trusted peers only, whatever the order of the workers' steps and of the turns
of the session workers. -/
theorem unadmitted_inert (x : External) (network : IPv6) (localId : NodeId)
    (authenticated : Nat → NodeId) :
    (∀ (link : SessionLink) (s : SessionRun) (inputs : List SessionInput),
        s.worker.trusted = false →
        Run.Along (sessionStep x link) (NoAdmission x link) s inputs →
        Run.Along (sessionStep x link) (TurnInert x link) s inputs)
      ∧ (∀ (app : AppState) (link : SessionLink) (worker : SessionWorker) (turn : SessionTurn)
          (message : ControlMessage),
          SessionEffect.control message ∈ (sessionTurn x app link worker turn).effects →
          IsReply message)
      ∧ ∀ (d : Directory) (identityFile : Bytes) (answers : LoadAnswers) (trust : TrustState)
          (inputs : List DaemonStep), trustLoad x d identityFile answers = .ok trust →
          Run.Along (daemonStep x network localId authenticated)
            (SendsToTrusted x network localId authenticated) (startWorkers trust d) inputs := by
  refine ⟨fun link s inputs htrusted hnone => sessionRun_inert htrusted hnone,
    fun app link worker turn message h => sessionTurn_replies h, ?_⟩
  intro d identityFile answers trust inputs hload
  obtain ⟨-, -, -, hsorted, -⟩ := trustLoad_ok hload
  exact Run.along_of_throughout (fun s input h => h.sendsToTrusted)
    (Run.throughout_of_step (workersSound_daemonStep (x := x)) (workersSound_start hsorted) inputs)

/-- A node that has just started, with nobody trusted. -/
def freshApp : AppState where
  id := sampleInviter
  network := sampleNetwork
  mtu := 1280
  shareAllPorts := false
  sharedPorts := []
  localContact := .ofId sampleInviter
  trust := emptyTrust
  directory := ∅
  sessions := [acceptedSession (fun _ => (numberedPeer 1).id) 0]
  topology := []
  contacts := kademliaInit sampleInviter
  table := []
  advertisements := ∅
  origins := ∅
  activeOutboundPorts := ∅
  nextPacketId := 1
  counters _ := 0

/-- A stranger's session. -/
def strangerLink : SessionLink where
  session := acceptedSession (fun _ => (numberedPeer 1).id) 0
  peer := { nodeId := (numberedPeer 1).id, pubkey := (numberedPeer 1).publicKey }

def frameAnswers : FrameAnswers where
  touchedAt := 1000
  blockAt := 1000
  storedAt := 1000
  rebuiltAt := 1000
  nowSeconds := 100
  admission := sampleAnswers none
  data := { now := 1000, tunWrites := true, sends := fun _ _ => true }
  replySent := true

/-- The stranger asks to join in the name of a trusted peer, which would need
no invitation. -/
def impersonation : ControlMessage where
  type := .joinRequest
  sequenceNumber := 1
  sender := (numberedPeer 0).id
  payload := serializeJoinRequest { sampleRequest (numberedPeer 0) with inviteToken := [] }

def impersonationTurn : SessionTurn where
  now := 0
  reception := .frame 1 ⟨1, .control, serializeControlMessage impersonation⟩ frameAnswers

/-- An impersonating JOIN_REQUEST; and the daemon starts with an empty trust
store, and takes a turn with the stranger's session too. -/
theorem unadmitted_inert_stranger :
    Run.Along (sessionStep posix strangerLink) (TurnInert posix strangerLink)
        { app := { freshApp with trust := { emptyTrust with peers := [numberedPeer 0] } }
          worker := startSessionWorker false 0 }
        [.turn impersonationTurn]
      ∧ Run.Along (daemonStep posix sampleNetwork sampleInviter fun _ => (numberedPeer 1).id)
          (SendsToTrusted posix sampleNetwork sampleInviter fun _ => (numberedPeer 1).id)
          (startWorkers emptyTrust ∅)
          [.block (.accept 0), .block (.collect 0 1000), .block (.examine 0 true),
            .block (.examine 0 true), .block (.tell 0 .hello),
            .turn 1 freshApp strangerLink (startSessionWorker false 0) impersonationTurn] := by
  have h := unadmitted_inert posix sampleNetwork sampleInviter fun _ => (numberedPeer 1).id
  refine ⟨h.1 _ _ _ rfl ⟨?_, trivial⟩, h.2.2 ∅ (ascii "identity") .success _ _ rfl⟩
  rintro ⟨-, -, receivedAt, wire, answers, hreception, -, -, incoming, request, hread, hsender, -⟩
  cases hreception
  have hback : deserializeControlMessage (serializeControlMessage impersonation)
      = .ok impersonation := deserializeControlMessage_serialize (by decide) (by decide)
  dsimp only at hread
  rw [hback] at hread
  cases hread
  exact absurd hsender (by decide)

end Madoka

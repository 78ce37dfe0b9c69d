import Madoka.Daemon.PeerBlocks
import Madoka.Daemon.Replies
import Madoka.Daemon.SessionLoop

/-!
# Reconnect Step

How a node connects to the peers it already trusts (`reconnect_step` of
`core/daemon.cpp`), and what a step may do whatever the other ends answer. A
step is taken in one go; what the other threads do meanwhile is left out.
-/

namespace Madoka

open Octets

/-! ## A session that ends -/

/-- `deactivate_neighbor`, its blocks in a row. -/
def deactivateNeighbor (app : AppState) (id : NodeId) (rebuiltAt : Nat) : AppState :=
  if anotherSession app.sessions id then app
  else
    { app with
      topology := deactivateBlock app.topology id
      advertisements := app.advertisements.erase id }.rebuild rebuiltAt

def removeSession (app : AppState) (serial : Nat) (rebuiltAt : Nat) : AppState :=
  match eraseSession app.sessions serial with
  | (sessions, none) => { app with sessions := sessions }
  | (sessions, some id) => deactivateNeighbor { app with sessions := sessions } id rebuiltAt

/-! ## One target -/

/-- What the sockets and the clocks answer while one target is tried. -/
structure ReconnectAnswers where
  /-- The endpoint in the contact of a listed session. -/
  contactEndpoint : Nat → Bytes
  /-- Whom `transport_connect_tls` has reached and authenticated. -/
  connected : Option TlsPeer
  /-- The new session, as told apart from the others. -/
  serial : Nat
  sequenceNumber : UInt64
  nowMs : UInt64
  requestSent : Bool
  /-- What `receive_on_session` comes back with. -/
  reply : Option Message
  /-- For the times of the blocks of `activate_neighbor`. -/
  activation : FrameAnswers

/-- An open session of the target, or to its endpoint. -/
def alreadyConnected (sessions : List AppPeerSession) (contactEndpoint : Nat → Bytes)
    (target : TrustedPeer) : Bool :=
  sessions.any fun session => session.isOpen
    ∧ (session.peerId = some target.id ∨ contactEndpoint session.serial = target.endpoint)

/-- The request of a peer that is known, and shows no invitation. -/
def reconnectJoin (app : AppState) (nowMs : UInt64) : JoinRequest where
  nodeId := app.id
  publicKey := app.localContact.publicKey
  virtualAddress := app.localContact.virtualAddress
  endpoint := app.localContact.endpoint
  timestamp := nowMs
  nonce := 1001
  inviteToken := []

def reconnectRequest (app : AppState) (sequenceNumber nowMs : UInt64) : ControlMessage :=
  controlMessageCreate .joinRequest sequenceNumber app.id
    (serializeJoinRequest (reconnectJoin app nowMs))

/-- The acceptance by a peer that a message carries, if it carries one. -/
def acceptance (peerId : NodeId) (wire : Message) : Option JoinResponse :=
  if wire.type ≠ .control then none
  else
    match deserializeControlMessage wire.payload with
    | .error _ => none
    | .ok reply =>
        if reply.type ≠ .joinResponse ∨ reply.sender ≠ peerId then none
        else
          match deserializeJoinResponse reply.payload with
          | .error _ => none
          | .ok response => if response.accepted then some response else none

/-- The contact of the target: what its response leaves out is filled in, and
what contradicts the trust store is refused. -/
def reconnectContact (network : IPv6) (target : TrustedPeer) (response : JoinResponse) :
    Option NodeContact :=
  let contact := response.bootstrapContact
  if (contact.id ≠ zero 32 ∧ contact.id ≠ target.id)
      ∨ (contact.publicKey ≠ zero 32 ∧ contact.publicKey ≠ target.publicKey)
      ∨ (contact.virtualAddress ≠ zero 16
        ∧ contact.virtualAddress ≠ virtualAddress network target.id) then none
  else
    some { contact with
      id := target.id
      publicKey := target.publicKey
      virtualAddress := if contact.virtualAddress = zero 16 then virtualAddress network target.id
        else contact.virtualAddress
      endpoint := target.endpoint }

/-- The state after a target was tried, the request that was sent and the
session that stays. -/
structure ReconnectResult where
  app : AppState
  request : Option ControlMessage
  link : Option SessionLink

variable (x : External)

/-- Whether the session list and the target let a step connect. -/
def mayConnect (app : AppState) (target : TrustedPeer) (contactEndpoint : Nat → Bytes) : Bool :=
  app.id < target.id ∧ usableEndpoint x target.endpoint
    ∧ !alreadyConnected app.sessions contactEndpoint target

/-- Register the session and activate its peer, or undo both. -/
def enterSession (app : AppState) (link : SessionLink) (contact : NodeContact)
    (answers : FrameAnswers) : Bool × AppState :=
  match registerSession app.sessions link.session with
  | none => (false, removeSession app link.session.serial answers.rebuiltAt)
  | some sessions =>
      match activateNeighbor { app with sessions := sessions } contact answers with
      | (false, app) => (false, removeSession app link.session.serial answers.rebuiltAt)
      | (true, app) => (true, app)

/-- One target of the loop, from its tests to `register_session` and
`activate_neighbor`. -/
def reconnectTarget (app : AppState) (target : TrustedPeer) (answers : ReconnectAnswers) :
    ReconnectResult :=
  if !mayConnect x app target answers.contactEndpoint then
    { app := app, request := none, link := none }
  else
    match answers.connected with
    | none => { app := app, request := none, link := none }
    | some peer =>
        if peer.nodeId ≠ target.id ∨ peer.pubkey ≠ target.publicKey then
          { app := app, request := none, link := none }
        else if app.sessions.any (fun s => s.peerId = some peer.nodeId ∧ s.isOpen) then
          { app := app, request := none, link := none }
        else if !answers.requestSent then { app := app, request := none, link := none }
        else
          let request := reconnectRequest app answers.sequenceNumber answers.nowMs
          match (answers.reply.bind (acceptance peer.nodeId)).bind
              (reconnectContact app.network target) with
          | none => { app := app, request := some request, link := none }
          | some contact =>
              let link : SessionLink :=
                { session := { serial := answers.serial, peerId := some peer.nodeId, isOpen := true }
                  peer := peer }
              let (entered, app) := enterSession app link contact answers.activation
              { app := app, request := some request, link := if entered then some link else none }

/-- The targets are the peers that are trusted when the step begins. -/
def reconnectStep (app : AppState) (answers : TrustedPeer → ReconnectAnswers) : AppState :=
  app.trust.peers.foldl (fun app target => (reconnectTarget x app target (answers target)).app) app

variable {x}

/-! ## Any answers -/

/-- No more sessions than there is room for, told apart, and no two open ones
with the same peer. -/
structure SessionsSound (sessions : List AppPeerSession) : Prop where
  room : sessions.length ≤ maxPeerSessions
  serials : (sessions.map AppPeerSession.serial).Nodup
  single : sessions.Pairwise fun a b => a.isOpen = true → b.isOpen = true → a.peerId ≠ b.peerId

/-- What trying some targets, given by their identifiers, leaves alone, and
which sessions it may add. -/
structure Reconnects (tried : NodeId → Prop) (genuine : AppPeerSession → Prop)
    (app after : AppState) : Prop where
  id : after.id = app.id
  network : after.network = app.network
  localContact : after.localContact = app.localContact
  trust : after.trust = app.trust
  directory : after.directory = app.directory
  contacts : after.contacts = app.contacts
  origins : after.origins = app.origins
  ports : after.activeOutboundPorts = app.activeOutboundPorts
  topology : (app.topology.map Peer.id).Nodup → (after.topology.map Peer.id).Nodup
    ∧ ∀ id, ¬ tried id → topologyFindPeer after.topology id = topologyFindPeer app.topology id
  advertisements : ∀ id, ¬ tried id →
    after.advertisements.lookup id = app.advertisements.lookup id
  sessions : ∃ added, after.sessions = app.sessions ++ added ∧ ∀ s ∈ added, genuine s

section
variable {tried : NodeId → Prop} {genuine : AppPeerSession → Prop} {app after last : AppState}
  {sessions : List AppPeerSession} {session : AppPeerSession} {id : NodeId}

theorem Reconnects.refl (app : AppState) : Reconnects tried genuine app app :=
  ⟨rfl, rfl, rfl, rfl, rfl, rfl, rfl, rfl, fun h => ⟨h, fun _ _ => rfl⟩, fun _ _ => rfl,
    [], (List.append_nil _).symm, by simp⟩

theorem Reconnects.trans (h : Reconnects tried genuine app after)
    (h' : Reconnects tried genuine after last) : Reconnects tried genuine app last := by
  obtain ⟨added, hadded, hgenuine⟩ := h.sessions
  obtain ⟨added', hadded', hgenuine'⟩ := h'.sessions
  refine ⟨h'.id.trans h.id, h'.network.trans h.network, h'.localContact.trans h.localContact,
    h'.trust.trans h.trust, h'.directory.trans h.directory, h'.contacts.trans h.contacts,
    h'.origins.trans h.origins, h'.ports.trans h.ports,
    fun hdistinct => ⟨(h'.topology (h.topology hdistinct).1).1, fun id hid =>
      ((h'.topology (h.topology hdistinct).1).2 id hid).trans ((h.topology hdistinct).2 id hid)⟩,
    fun id hid => (h'.advertisements id hid).trans (h.advertisements id hid),
    added ++ added', by rw [hadded', hadded, List.append_assoc], ?_⟩
  intro s hs
  rcases List.mem_append.mp hs with hs | hs
  · exact hgenuine s hs
  · exact hgenuine' s hs

theorem Reconnects.weaken {genuine' : AppPeerSession → Prop}
    (h : Reconnects tried genuine app after) (hweaker : ∀ s, genuine s → genuine' s) :
    Reconnects tried genuine' app after := by
  obtain ⟨added, hadded, hgenuine⟩ := h.sessions
  exact { h with sessions := ⟨added, hadded, fun s hs => hweaker s (hgenuine s hs)⟩ }

theorem SessionsSound.register (h : SessionsSound sessions)
    (hserial : session.serial ∉ sessions.map AppPeerSession.serial) {sessions' : List AppPeerSession}
    (hregister : registerSession sessions session = some sessions') :
    sessions' = sessions ++ [session] ∧ SessionsSound sessions' := by
  unfold registerSession at hregister
  split at hregister
  · cases hregister
  · next id hpeer =>
      split at hregister
      · cases hregister
      · next hroom =>
          split at hregister
          · cases hregister
          · next hsingle =>
              cases hregister
              refine ⟨rfl, ?_, ?_, ?_⟩
              · rw [List.length_append, List.length_singleton]
                omega
              · rw [List.map_append, List.nodup_append]
                refine ⟨h.serials, by simp, ?_⟩
                intro a ha b hb hsame
                rw [List.map_singleton, List.mem_singleton] at hb
                exact hserial (hb ▸ hsame ▸ ha)
              · rw [List.pairwise_append]
                refine ⟨h.single, by simp, ?_⟩
                intro a ha b hb hopen _ hsame
                rw [List.mem_singleton.mp hb, hpeer] at hsame
                exact hsingle (List.any_eq_true.mpr ⟨a, ha, by simp [hsame, hopen]⟩)

theorem eraseSession_absent {serial : Nat} (h : serial ∉ sessions.map AppPeerSession.serial) :
    eraseSession sessions serial = (sessions, none) := by
  have hnone : sessions.find? (fun existing => existing.serial = serial) = none := by
    rw [List.find?_eq_none]
    intro s hs hsame
    exact h (List.mem_map.mpr ⟨s, hs, of_decide_eq_true hsame⟩)
  rw [eraseSession, hnone]

theorem eraseSession_last (h : session.serial ∉ sessions.map AppPeerSession.serial) :
    eraseSession (sessions ++ [session]) session.serial = (sessions, session.peerId) := by
  have hnone : ∀ s ∈ sessions, ¬ decide (s.serial = session.serial) = true := by
    intro s hs hsame
    exact h (List.mem_map.mpr ⟨s, hs, of_decide_eq_true hsame⟩)
  have hfind : (sessions ++ [session]).find? (fun existing => existing.serial = session.serial)
      = some session := by
    rw [List.find?_append, List.find?_eq_none.mpr hnone]
    simp
  rw [eraseSession, hfind]
  dsimp only
  rw [List.eraseP_append_right _ hnone]
  simp

theorem topologyFindPeer_changeAt_other {topo : Topology} {change : Peer → Peer} {other : NodeId}
    (h : ∀ p, (change p).id = p.id) (hne : other ≠ id) :
    topologyFindPeer (topo.map (changeAt id change)) other = topologyFindPeer topo other := by
  rw [topologyFindPeer_changeAt h]
  simp [hne]

/-- Removing a peer's last session touches nothing but what is known of the
peer. -/
theorem deactivateNeighbor_reconnects (htried : tried id) (rebuiltAt : Nat) :
    Reconnects tried genuine app (deactivateNeighbor app id rebuiltAt) := by
  unfold deactivateNeighbor
  split
  · exact .refl app
  · refine ⟨rfl, rfl, rfl, rfl, rfl, rfl, rfl, rfl, ?_, ?_, [], (List.append_nil _).symm, by simp⟩
    · intro hdistinct
      show ((deactivateBlock app.topology id).map Peer.id).Nodup ∧ _
      rw [AppState.rebuild, deactivateBlock_eq hdistinct]
      have hsame : ∀ p, (Peer.disconnect p).id = p.id := fun _ => rfl
      refine ⟨?_, fun other hother => ?_⟩
      · rwa [map_id_map (changeAt_id hsame)]
      · apply topologyFindPeer_changeAt_other hsame
        rintro rfl
        exact hother htried
    · intro other hother
      have hne : other ≠ id := by
        rintro rfl
        exact hother htried
      exact AList.lookup_erase_ne hne

theorem activateNeighbor_cases (contact : NodeContact) (answers : FrameAnswers) :
    activateNeighbor app contact answers = (false, app)
      ∨ ∃ topology, activateBlock app.topology contact answers.blockAt = some topology
        ∧ mayActivate app.network app.id app.trust contact = true
        ∧ activateNeighbor app contact answers
          = (true, { app with topology := topology }.rebuild answers.rebuiltAt) := by
  unfold activateNeighbor
  split
  · exact .inl rfl
  · next hmay =>
      split
      · exact .inl rfl
      · next topology hblock => exact .inr ⟨topology, hblock, by simpa using hmay, rfl⟩

theorem activateBlock_other {contact : NodeContact} {timestamp : Nat} {topo topo' : Topology}
    (hdistinct : (topo.map Peer.id).Nodup)
    (hblock : activateBlock topo contact timestamp = some topo') :
    (topo'.map Peer.id).Nodup
      ∧ ∀ other, other ≠ contact.id → topologyFindPeer topo' other = topologyFindPeer topo other := by
  have hsame : ∀ p, (Peer.rejoined contact timestamp p).id = p.id := fun _ => rfl
  rcases activateBlock_some hdistinct hblock with ⟨hnew, -, rfl⟩ | ⟨-, rfl⟩
  · refine ⟨?_, fun other hother => ?_⟩
    · rw [List.map_append, List.map_singleton, ← List.concat_eq_append, List.nodup_concat]
      refine ⟨fun hmem => ?_, hdistinct⟩
      obtain ⟨p, hp, hid⟩ := List.mem_map.mp hmem
      have hfound := topologyFindPeer_of_mem hdistinct hp
      rw [hid] at hfound
      exact absurd (hnew.symm.trans hfound) nofun
    · have hno : (contact.joined timestamp).id ≠ other := fun hid => hother hid.symm
      rw [topologyFindPeer_append, if_neg hno, Option.or_none]
  · refine ⟨?_, fun other hother => ?_⟩
    · rwa [map_id_map (changeAt_id hsame)]
    · exact topologyFindPeer_changeAt_other hsame hother

theorem removeSession_last (h : session.serial ∉ app.sessions.map AppPeerSession.serial)
    (hpeer : session.peerId = some id) (rebuiltAt : Nat) :
    removeSession { app with sessions := app.sessions ++ [session] } session.serial rebuiltAt
      = deactivateNeighbor app id rebuiltAt := by
  have herase : eraseSession (app.sessions ++ [session]) session.serial
      = (app.sessions, some id) := by
    rw [eraseSession_last h, hpeer]
  unfold removeSession
  simp only [herase]

theorem deactivateNeighbor_sessions (id : NodeId) (rebuiltAt : Nat) :
    (deactivateNeighbor app id rebuiltAt).sessions = app.sessions := by
  unfold deactivateNeighbor
  split <;> rfl

/-- A session that cannot be entered leaves the list as it was. -/
theorem enterSession_reconnects {link : SessionLink} {contact : NodeContact}
    (hpeer : link.session.peerId = some contact.id) (htried : tried contact.id)
    (hgenuine : genuine link.session) (hsound : SessionsSound app.sessions)
    (hserial : link.session.serial ∉ app.sessions.map AppPeerSession.serial)
    (answers : FrameAnswers) :
    Reconnects tried genuine app (enterSession app link contact answers).2
      ∧ SessionsSound (enterSession app link contact answers).2.sessions := by
  unfold enterSession
  cases hregister : registerSession app.sessions link.session with
  | none =>
      dsimp only
      rw [removeSession, eraseSession_absent hserial]
      exact ⟨.refl app, hsound⟩
  | some sessions =>
      obtain ⟨rfl, hregistered⟩ := hsound.register hserial hregister
      dsimp only
      rcases @activateNeighbor_cases { app with sessions := app.sessions ++ [link.session] } contact
        answers with hrefused | ⟨topology, hblock, -, hentered⟩
      · rw [hrefused]
        dsimp only
        rw [removeSession_last hserial hpeer]
        exact ⟨deactivateNeighbor_reconnects htried _, (deactivateNeighbor_sessions _ _).symm ▸ hsound⟩
      · rw [hentered]
        refine ⟨⟨rfl, rfl, rfl, rfl, rfl, rfl, rfl, rfl, ?_, fun _ _ => rfl,
          [link.session], rfl, by simpa using hgenuine⟩, hregistered⟩
        intro hdistinct
        obtain ⟨hnext, hother⟩ := activateBlock_other hdistinct hblock
        refine ⟨hnext, fun other hno => hother other ?_⟩
        rintro rfl
        exact hno htried

/-- What a step accepts agrees with the trust store and with the addresses. -/
theorem reconnectContact_some {network : IPv6} {target : TrustedPeer} {response : JoinResponse}
    {contact : NodeContact} (h : reconnectContact network target response = some contact) :
    contact.id = target.id ∧ contact.publicKey = target.publicKey
      ∧ contact.endpoint = target.endpoint
      ∧ contact.virtualAddress = virtualAddress network target.id := by
  unfold reconnectContact at h
  dsimp only at h
  split at h
  · cases h
  · next hagrees =>
      cases h
      refine ⟨rfl, rfl, rfl, ?_⟩
      dsimp only
      split
      · rfl
      · next hgiven =>
          by_contra hother
          exact hagrees (.inr (.inr ⟨hgiven, hother⟩))

end

/-- The session of a peer that the node trusts, with its key, and that it is
for the node to call. -/
def GenuineSession (app : AppState) (answers : TrustedPeer → ReconnectAnswers)
    (session : AppPeerSession) : Prop :=
  ∃ target ∈ app.trust.peers, app.id < target.id ∧ session.isOpen = true
    ∧ session.peerId = some target.id ∧ session.serial = (answers target).serial
    ∧ (answers target).connected = some { nodeId := target.id, pubkey := target.publicKey }

theorem reconnectTarget_reconnects {app : AppState} {target : TrustedPeer}
    {answers : ReconnectAnswers} {tried : NodeId → Prop} {genuine : AppPeerSession → Prop}
    (htried : app.id < target.id → tried target.id)
    (hgenuine : app.id < target.id →
      answers.connected = some { nodeId := target.id, pubkey := target.publicKey } →
      genuine { serial := answers.serial, peerId := some target.id, isOpen := true })
    (hsound : SessionsSound app.sessions)
    (hserial : answers.serial ∉ app.sessions.map AppPeerSession.serial) :
    Reconnects tried genuine app (reconnectTarget x app target answers).app
      ∧ SessionsSound (reconnectTarget x app target answers).app.sessions := by
  unfold reconnectTarget
  split
  · exact ⟨.refl app, hsound⟩
  · next hmay =>
      have hmay : mayConnect x app target answers.contactEndpoint = true := by simpa using hmay
      have hcalls : app.id < target.id := (of_decide_eq_true hmay).1
      split
      · exact ⟨.refl app, hsound⟩
      · next peer hconnected =>
          split
          · exact ⟨.refl app, hsound⟩
          · next hexpected =>
              obtain ⟨hid, hkey⟩ := not_or.mp hexpected
              obtain ⟨nodeId, pubkey⟩ := peer
              cases not_not.mp hid
              cases not_not.mp hkey
              split
              · exact ⟨.refl app, hsound⟩
              · split
                · exact ⟨.refl app, hsound⟩
                · dsimp only
                  split
                  · exact ⟨.refl app, hsound⟩
                  · next contact hcontact =>
                      obtain ⟨response, -, hcontact⟩ := Option.bind_eq_some_iff.mp hcontact
                      obtain ⟨hname, -⟩ := reconnectContact_some hcontact
                      exact enterSession_reconnects (congrArg some hname.symm)
                        (hname ▸ htried hcalls) (hgenuine hcalls hconnected) hsound hserial _

/-- A peer that the node trusts and that it is for the node to call. -/
def IsTarget (app : AppState) (id : NodeId) : Prop :=
  ∃ target ∈ app.trust.peers, target.id = id ∧ app.id < id

theorem reconnectTargets_reconnects {first app : AppState} {targets : List TrustedPeer}
    (answers : TrustedPeer → ReconnectAnswers) (htargets : ∀ t ∈ targets, t ∈ first.trust.peers)
    (hid : app.id = first.id) (hsound : SessionsSound app.sessions)
    (hserials : (app.sessions.map AppPeerSession.serial
      ++ targets.map fun target => (answers target).serial).Nodup) :
    Reconnects (IsTarget first) (GenuineSession first answers) app
        (targets.foldl (fun app target => (reconnectTarget x app target (answers target)).app) app)
      ∧ SessionsSound (targets.foldl (fun app target =>
        (reconnectTarget x app target (answers target)).app) app).sessions := by
  induction targets generalizing app with
  | nil => exact ⟨.refl app, hsound⟩
  | cons target targets ih =>
      have htarget := htargets target List.mem_cons_self
      rw [List.map_cons, List.nodup_middle, List.nodup_cons, List.mem_append, not_or] at hserials
      obtain ⟨⟨hfresh, hlater⟩, hrest⟩ := hserials
      have hcalled : app.id < target.id → IsTarget first target.id :=
        fun hlt => ⟨target, htarget, rfl, hid ▸ hlt⟩
      obtain ⟨hone, hsound'⟩ := @reconnectTarget_reconnects x app target (answers target)
        (IsTarget first)
        (fun s => GenuineSession first answers s ∧ s.serial = (answers target).serial) hcalled
        (fun hlt hconnected => ⟨⟨target, htarget, hid ▸ hlt, rfl, rfl, rfl, hconnected⟩, rfl⟩)
        hsound hfresh
      obtain ⟨added, hadded, hgenuine⟩ := hone.sessions
      -- what was added has the number of this target, which no later one has
      have hserials' : ((reconnectTarget x app target (answers target)).app.sessions.map
          AppPeerSession.serial ++ targets.map fun target => (answers target).serial).Nodup := by
        rw [List.nodup_append]
        refine ⟨hsound'.serials, (List.nodup_append.mp hrest).2.1, ?_⟩
        intro a ha b hb hsame
        rw [hadded, List.map_append, List.mem_append] at ha
        rcases ha with ha | ha
        · exact (List.nodup_append.mp hrest).2.2 a ha b hb hsame
        · obtain ⟨s, hs, rfl⟩ := List.mem_map.mp ha
          rw [(hgenuine s hs).2] at hsame
          exact hlater (hsame ▸ hb)
      obtain ⟨hmore, hlast⟩ := ih (fun t ht => htargets t (List.mem_cons_of_mem _ ht))
        (hone.id.trans hid) hsound' hserials'
      exact ⟨(hone.weaken fun s hs => hs.1).trans hmore, hlast⟩

/-- Whatever anybody answers, a `reconnect_step` adds sessions of trusted
peers only, each authenticated with the key that is trusted, never two open
ones with one peer and never more than there is room for; and what is known of
any other peer stays as it was. -/
theorem reconnectStep_sound (x : External) (app : AppState)
    (answers : TrustedPeer → ReconnectAnswers) (hsound : SessionsSound app.sessions)
    (hserials : (app.sessions.map AppPeerSession.serial
      ++ app.trust.peers.map fun target => (answers target).serial).Nodup) :
    Reconnects (IsTarget app) (GenuineSession app answers) app (reconnectStep x app answers)
      ∧ SessionsSound (reconnectStep x app answers).sessions :=
  reconnectTargets_reconnects answers (fun _ h => h) rfl hsound hserials

/-- A node that has just started and trusts one other. -/
def trustingNode (self other : TrustedPeer) : AppState where
  id := self.id
  network := sampleNetwork
  mtu := 1280
  shareAllPorts := false
  sharedPorts := []
  localContact := trustedContact sampleNetwork self
  trust := { directory := trustDirectory (ascii "identity"), peers := [other] }
  directory := ∅
  sessions := []
  topology := []
  contacts := kademliaInit self.id
  table := []
  advertisements := ∅
  origins := ∅
  activeOutboundPorts := ∅
  nextPacketId := 0
  counters := fun _ => 0

def steadyAnswers : FrameAnswers where
  touchedAt := 1000
  blockAt := 1000
  storedAt := 1000
  rebuiltAt := 1000
  nowSeconds := 100
  admission := sampleAnswers none
  data := { now := 1000, tunWrites := true, sends := fun _ _ => true }
  replySent := true

def firstCall : ReconnectAnswers where
  contactEndpoint := fun _ => []
  connected := none
  serial := 0
  sequenceNumber := 1
  nowMs := 5
  requestSent := true
  reply := none
  activation := steadyAnswers

def firstNode : AppState := trustingNode (numberedPeer 0) (numberedPeer 1)

def secondNode : AppState := trustingNode (numberedPeer 1) (numberedPeer 0)

/-- The first node with a session of another peer. -/
def busyNode : AppState :=
  { firstNode with sessions := [{ serial := 9, peerId := some (numberedPeer 2).id, isOpen := true }] }

/-- The second node accepts. -/
def acceptedCall : ReconnectAnswers :=
  { firstCall with
    connected := some ⟨secondNode.id, (numberedPeer 1).publicKey⟩
    reply := some (makeControlWire (controlMessageCreate .joinResponse 1 secondNode.id
      (serializeJoinResponse
        { accepted := true
          bootstrapContact := secondNode.localContact
          bootstrapId := secondNode.id
          peers := [] }))) }

theorem reconnectStep_sound_busyNode :
    (reconnectStep posix busyNode fun _ => acceptedCall).sessions
        = busyNode.sessions ++ [{ serial := 0, peerId := some secondNode.id, isOpen := true }]
      ∧ Reconnects (IsTarget busyNode) (GenuineSession busyNode fun _ => acceptedCall) busyNode
        (reconnectStep posix busyNode fun _ => acceptedCall)
      ∧ SessionsSound (reconnectStep posix busyNode fun _ => acceptedCall).sessions := by
  have hsound : SessionsSound busyNode.sessions :=
    ⟨by decide, List.nodup_singleton _, List.pairwise_singleton _ _⟩
  have hserials : (busyNode.sessions.map AppPeerSession.serial
      ++ busyNode.trust.peers.map fun _ => acceptedCall.serial).Nodup := by decide
  exact ⟨by decide +kernel, reconnectStep_sound posix busyNode _ hsound hserials⟩

end Madoka

import Madoka.Daemon.Invitations
import Madoka.Lib.Durable

/-!
# Power Loss

An inviting node that may be killed or lose its power at any time and is then
started again. Nothing that it has said yes to is taken back: a ticket that
has admitted somebody admits nobody else, and whoever was admitted is trusted
after every start. An operation that is cut short is one whose later steps
fail.
-/

namespace Madoka

open Octets Durable

/-- The state directory. An operation on it that reports success has flushed
it at its end. -/
abbrev StateDisk := Medium fun (d : Directory) (name : Bytes) => d.lookup name

/-- The node's trust store while it runs, its disk, and what has happened so
far, as in a run without failures, with the peers that were admitted. -/
structure InviterNode where
  trust : Option TrustState
  disk : StateDisk
  issued : List InviteTicket
  honoured : List InviteTicket
  admitted : List NodeId

/-- Tickets are issued by the node or by another process on its directory. A
node stops, and when the power is lost another directory may be left. -/
inductive InviterEvent where
  | store (trust : TrustState) (ticket : InviteTicket) (answers : StoreAnswers)
  | request (request : JoinRequest) (nowSeconds : UInt64) (answers : AdmissionAnswers)
  | stop (left : Option Directory)
  | start (answers : LoadAnswers)

variable (x : External) (network : IPv6) (localId : NodeId) (identityFile : Bytes)

def StateDisk.after (disk : StateDisk) (result : Except String Unit × Directory) : StateDisk :=
  match result.1 with
  | .ok () => Medium.sync _ result.2
  | .error _ => disk.write result.2

/-- The disk between the two parts of an admission. A ticket that was consumed
was removed and the removal flushed. -/
def betweenAdmission (disk : StateDisk) (trust : TrustState) (request : JoinRequest)
    (nowSeconds : UInt64) (answers : ConsumeAnswers) : StateDisk :=
  let first := invitedOrKnown x network localId trust disk.now request nowSeconds answers
  if first.1 ∧ request.inviteToken ≠ [] then Medium.sync _ first.2 else disk.write first.2

def afterAdmission (disk : StateDisk) (trust : TrustState) (request : JoinRequest)
    (nowSeconds : UInt64) (answers : AdmissionAnswers) : StateDisk :=
  let result := admitJoin x network localId trust disk.now request nowSeconds answers
  if result.1 then Medium.sync _ result.2.2
  else (betweenAdmission x network localId disk trust request nowSeconds answers.consume).write
    result.2.2

def inviterNodeStep (n : InviterNode) : InviterEvent → InviterNode
  | .store trust ticket answers =>
      { n with
        disk := StateDisk.after n.disk (inviteStore x trust n.disk.now ticket answers)
        issued := n.issued ++ [{ ticket with consumed := false }] }
  | .request request nowSeconds answers =>
      match n.trust with
      | none => n
      | some trust =>
          let result := admitJoin x network localId trust n.disk.now request nowSeconds answers
          { n with
            trust := some result.2.1
            disk := afterAdmission x network localId n.disk trust request nowSeconds answers
            honoured := if result.1 then n.honoured ++ (shownTicket x request).toList
              else n.honoured
            admitted := if result.1 then n.admitted ++ [request.nodeId] else n.admitted }
  | .stop none => { n with trust := none }
  | .stop (some left) => { n with trust := none, disk := Medium.sync _ left }
  | .start answers => { n with trust := (trustLoad x n.disk.now identityFile answers).toOption }

/-- A loss of power leaves of every file what it held when the directory was
flushed last, or since; of a temporary file anything. -/
def LossPossible (n : InviterNode) (event : InviterEvent) : Prop :=
  ∀ left, event = .stop (some left) → n.disk.Leaves NotTemporary left

def InviterEvent.secret : InviterEvent → Option (ByteArr 16)
  | .store _ ticket _ => some ticket.secret
  | _ => none

/-! ## The invariant -/

/-- What a ticket file may hold. -/
def IssuedContents (issued : List InviteTicket) (name : Bytes) (contents : Option Bytes) : Prop :=
  ∀ secret, name = invitePath secret → ∀ bytes, contents = some bytes →
    ∃ t ∈ issued, t.secret = secret ∧ t.consumed = false ∧ inviteEncode x t ≠ []
      ∧ bytes = inviteEncode x t ++ [newline]

/-- A ticket that was honoured has no file. -/
def HonouredGone (honoured : List InviteTicket) (name : Bytes) (contents : Option Bytes) : Prop :=
  ∀ t ∈ honoured, name = invitePath t.secret → contents = none

/-- A peer that was admitted has a good record. -/
def AdmittedRecorded (admitted : List NodeId) (name : Bytes) (contents : Option Bytes) : Prop :=
  ∀ id ∈ admitted, name = peerPath id → ∃ peer : TrustedPeer, contents = some (encodePeer peer)
    ∧ peer.id = id ∧ validEndpoint x peer.endpoint = true ∧ validIdentityBinding x peer = true

structure InviterNodeSound (n : InviterNode) : Prop where
  sorted : ∀ trust ∈ n.trust, LowerBound.Sorted TrustedPeer.id trust.peers
  trusted : ∀ trust ∈ n.trust, ∀ id ∈ n.admitted, trustContains trust id = true
  files : n.disk.Always (IssuedContents x n.issued)
  gone : n.disk.Always (HonouredGone n.honoured)
  recorded : n.disk.Always (AdmittedRecorded x n.admitted)
  issued : ∀ t ∈ n.honoured, t ∈ n.issued
  once : (n.honoured.map InviteTicket.secret).Nodup

variable {x network localId identityFile}

/-- While the node runs, what is on its disk now is as in a run without
failures. -/
theorem InviterNodeSound.running {n : InviterNode} (h : InviterNodeSound x n) {trust : TrustState}
    (htrust : n.trust = some trust) :
    InvitationsSound x ⟨trust, n.disk.now, n.issued, n.honoured⟩ where
  sorted := h.sorted trust htrust
  files := fun secret contents hfile => h.files.now (invitePath secret) secret rfl contents hfile
  honoured_issued := h.issued
  honoured_gone := fun t ht => h.gone.now (invitePath t.secret) t ht rfl
  once := h.once

section
variable {disk : StateDisk} {issued honoured : List InviteTicket} {admitted : List NodeId}
  {trust : TrustState} {request : JoinRequest} {nowSeconds : UInt64} {d : Directory}

theorem always_after {P : Bytes → Option Bytes → Prop} (h : disk.Always P)
    {result : Except String Unit × Directory} (hresult : ∀ name, P name (result.2.lookup name)) :
    (StateDisk.after disk result).Always P := by
  unfold StateDisk.after
  split
  · exact Medium.always_sync hresult
  · exact h.write hresult

theorem always_afterAdmission {P : Bytes → Option Bytes → Prop} (h : disk.Always P)
    {answers : AdmissionAnswers}
    (hfirst : ∀ name, P name ((invitedOrKnown x network localId trust disk.now request nowSeconds
      answers.consume).2.lookup name))
    (hlast : ∀ name, P name ((admitJoin x network localId trust disk.now request nowSeconds
      answers).2.2.lookup name)) :
    (afterAdmission x network localId disk trust request nowSeconds answers).Always P := by
  unfold afterAdmission betweenAdmission
  dsimp only
  split
  · exact Medium.always_sync hlast
  · split
    · exact (Medium.always_sync hfirst).write hlast
    · exact (h.write hfirst).write hlast

end

/-! ## Storing a ticket -/

/-- Expired tickets are all that is removed. -/
theorem countActive_lookup_other (createdAt : UInt64) (answers : StoreAnswers) {n : Bytes}
    (hn : isInviteFile n = false) (entries : List (Sigma fun _ : Bytes => Bytes)) (active : Nat)
    (d : Directory) :
    (countActive x createdAt answers active d entries).2.lookup n = d.lookup n := by
  induction entries generalizing active d with
  | nil => rfl
  | cons entry rest ih =>
      unfold countActive
      split
      · exact ih active d
      · next hinvite =>
          have hother : n ≠ entry.1 := by
            rintro rfl
            simp [hn] at hinvite
          split
          · rfl
          · split
            · rfl
            · split
              · rfl
              · split
                · rfl
                · split
                  · split
                    · rfl
                    · rw [ih, AList.lookup_erase_ne hother]
                  · exact ih (active + 1) d

theorem isInviteFile_peerPath (id : NodeId) : isInviteFile (peerPath id) = false := by
  simp [isInviteFile, peerPath, ascii]

/-- Storing a ticket leaves the records alone. -/
theorem inviteStore_lookup_peer (trust : TrustState) (d : Directory) (ticket : InviteTicket)
    (answers : StoreAnswers) (id : NodeId) :
    (inviteStore x trust d ticket answers).2.lookup (peerPath id) = d.lookup (peerPath id) := by
  unfold inviteStore
  split
  · rfl
  · split
    · rfl
    · have hlock := fileLockAcquire_lookup d answers.lock (peerPath_ne_stateLock id)
        (notTemporary_peerPath id)
      generalize fileLockAcquire d stateLock answers.lock = locked at hlock ⊢
      obtain ⟨result, d'⟩ := locked
      cases result with
      | error e => exact hlock
      | ok u =>
          dsimp only at hlock ⊢
          rw [← hlock]
          have hcount := countActive_lookup_other (x := x) ticket.createdAt answers
            (isInviteFile_peerPath id) d'.entries 0 d'
          unfold storeLocked
          generalize countActive x ticket.createdAt answers 0 d' d'.entries = counted at hcount ⊢
          obtain ⟨result, d''⟩ := counted
          cases result with
          | error e => exact hcount
          | ok active =>
              dsimp only at hcount ⊢
              split
              · exact hcount
              · split
                · exact hcount
                · split
                  · exact hcount
                  · split
                    · exact hcount
                    · rw [privateWriteAtomically_lookup_other d'' _ answers.write
                        (peerPath_ne_invitePath id ticket.secret) (notTemporary_peerPath id), hcount]

theorem inviterNodeStep_store {n : InviterNode} (h : InviterNodeSound x n) {ticket : InviteTicket}
    (hnew : ticket.secret ∉ n.issued.map InviteTicket.secret) (trust : TrustState)
    (answers : StoreAnswers) :
    InviterNodeSound x
      (inviterNodeStep x network localId identityFile n (.store trust ticket answers)) := by
  have hlookup := inviteStore_lookup (x := x) trust n.disk.now ticket answers
  have hwider : ∀ name contents, IssuedContents x n.issued name contents →
      IssuedContents x (n.issued ++ [{ ticket with consumed := false }]) name contents := by
    intro name contents hcontents secret hname bytes hbytes
    obtain ⟨t, ht, hrest⟩ := hcontents secret hname bytes hbytes
    exact ⟨t, List.mem_append_left _ ht, hrest⟩
  refine ⟨h.sorted, h.trusted, always_after (h.files.mono hwider) ?_, always_after h.gone ?_,
    always_after h.recorded ?_, fun t ht => List.mem_append_left _ (h.issued t ht), h.once⟩
  · intro name secret hname bytes hbytes
    subst hname
    rcases hlookup secret with hkeep | hgone | ⟨rfl, hvalid, hwritten⟩
    · rw [hkeep] at hbytes
      exact hwider _ _ (h.files.now (invitePath secret)) secret rfl bytes hbytes
    · rw [hgone] at hbytes
      cases hbytes
    · rw [hwritten] at hbytes
      cases hbytes
      exact ⟨{ ticket with consumed := false }, by simp, rfl, rfl, hvalid, rfl⟩
  · intro name t ht hname
    subst hname
    rcases hlookup t.secret with hkeep | hgone | ⟨hsecret, -, -⟩
    · exact hkeep.trans (h.gone.now _ t ht rfl)
    · exact hgone
    · -- a used ticket's secret is issued, and the new one is not
      exact absurd (hsecret ▸ List.mem_map_of_mem (h.issued t ht)) hnew
  · intro name id hid hname
    subst hname
    rw [inviteStore_lookup_peer]
    exact h.recorded.now _ id hid rfl

/-! ## A request -/

/-- The record of a peer is left as it was, or holds the peer. -/
theorem trustAdd_lookup_self (trust : TrustState) (d : Directory) (peer : TrustedPeer)
    (answers : TrustAddAnswers) :
    ((trustAdd x trust d peer answers).1 ≠ .ok ()
        ∧ (trustAdd x trust d peer answers).2.2.lookup (peerPath peer.id)
          = d.lookup (peerPath peer.id))
      ∨ validEndpoint x peer.endpoint = true ∧ validIdentityBinding x peer = true
        ∧ (trustAdd x trust d peer answers).2.2.lookup (peerPath peer.id)
          = some (encodePeer peer) := by
  rcases trustAdd_eq x trust d peer answers with ⟨-, e, heq⟩ | ⟨hwrites, heq⟩
  · rw [heq]
    exact .inl ⟨by simp, rfl⟩
  · have hself := privateWriteAtomically_lookup_self d (encodePeer peer) answers.write
      (notTemporary_peerPath peer.id)
    have hok := @privateWriteAtomically_ok d (peerPath peer.id) (encodePeer peer) answers.write
    rw [heq]
    generalize privateWriteAtomically d (peerPath peer.id) (encodePeer peer) answers.write
      = written at hself hok ⊢
    obtain ⟨result, d'⟩ := written
    cases result with
    | error e =>
        rcases hself with hkeep | hnew
        · exact .inl ⟨by simp, hkeep⟩
        · exact .inr ⟨hwrites.endpoint, hwrites.binding, hnew⟩
    | ok u => exact .inr ⟨hwrites.endpoint, hwrites.binding, (hok rfl _).trans (if_pos rfl)⟩

theorem admitJoin_lookup_peer (trust : TrustState) (d : Directory) (request : JoinRequest)
    (nowSeconds : UInt64) (answers : AdmissionAnswers) (id : NodeId) :
    ((id = request.nodeId →
          (admitJoin x network localId trust d request nowSeconds answers).1 = false)
        ∧ (admitJoin x network localId trust d request nowSeconds answers).2.2.lookup (peerPath id)
          = d.lookup (peerPath id))
      ∨ id = request.nodeId ∧ validEndpoint x request.endpoint = true
        ∧ validIdentityBinding x (requestedPeer request) = true
        ∧ (admitJoin x network localId trust d request nowSeconds answers).2.2.lookup (peerPath id)
          = some (encodePeer (requestedPeer request)) := by
  have hfirst := invitedOrKnown_lookup_peer (x := x) network localId trust d request nowSeconds
    answers.consume id
  by_cases hid : id = request.nodeId
  · subst hid
    unfold admitJoin
    generalize invitedOrKnown x network localId trust d request nowSeconds answers.consume = first
      at hfirst ⊢
    obtain ⟨admitted, d'⟩ := first
    cases admitted with
    | false => exact .inl ⟨fun _ => rfl, hfirst⟩
    | true =>
        have hself := trustAdd_lookup_self (x := x) trust d' (requestedPeer request) answers.add
        dsimp only at hfirst ⊢
        generalize trustAdd x trust d' (requestedPeer request) answers.add = added at hself ⊢
        obtain ⟨result, trust', d''⟩ := added
        rcases hself with ⟨hfailed, hkeep⟩ | ⟨hendpoint, hbinding, hrecord⟩
        · cases result with
          | error e => exact .inl ⟨fun _ => rfl, hkeep.trans hfirst⟩
          | ok u => exact absurd rfl hfailed
        · refine .inr ⟨rfl, hendpoint, hbinding, ?_⟩
          cases result <;> exact hrecord
  · refine .inl ⟨fun h => absurd h hid, ?_⟩
    rw [admitJoin_lookup_other network localId trust d request nowSeconds answers
      (fun h => hid (peerPath_injective h)) (notTemporary_peerPath id), hfirst]

section
variable {n : InviterNode} {trust : TrustState} {request : JoinRequest} {nowSeconds : UInt64}
  {answers : AdmissionAnswers}

/-- What is left of a ticket file is what was left of it before, or nothing. -/
theorem InviterNodeSound.tickets_afterAdmission (h : InviterNodeSound x n) :
    (afterAdmission x network localId n.disk trust request nowSeconds answers).Always
        (IssuedContents x n.issued)
      ∧ (afterAdmission x network localId n.disk trust request nowSeconds answers).Always
        (HonouredGone n.honoured) := by
  have hbetween := invitedOrKnown_lookup_invite (x := x) network localId trust n.disk.now request
    nowSeconds answers.consume
  have hlast := admitJoin_lookup_invite (x := x) network localId
    ⟨trust, n.disk.now, n.issued, n.honoured⟩ request nowSeconds answers
  have hissued : ∀ (d : Directory), (∀ secret,
      d.lookup (invitePath secret) = n.disk.now.lookup (invitePath secret)
        ∨ d.lookup (invitePath secret) = none) →
      ∀ name, IssuedContents x n.issued name (d.lookup name) := by
    intro d hd name secret hname bytes hbytes
    subst hname
    rcases hd secret with hkeep | hgone
    · rw [hkeep] at hbytes
      exact h.files.now (invitePath secret) secret rfl bytes hbytes
    · rw [hgone] at hbytes
      cases hbytes
  have hhonoured : ∀ (d : Directory), (∀ secret,
      d.lookup (invitePath secret) = n.disk.now.lookup (invitePath secret)
        ∨ d.lookup (invitePath secret) = none) →
      ∀ name, HonouredGone n.honoured name (d.lookup name) := by
    intro d hd name t ht hname
    subst hname
    rcases hd t.secret with hkeep | hgone
    · exact hkeep.trans (h.gone.now _ t ht rfl)
    · exact hgone
  exact ⟨always_afterAdmission h.files (hissued _ hbetween) (hissued _ hlast),
    always_afterAdmission h.gone (hhonoured _ hbetween) (hhonoured _ hlast)⟩

theorem InviterNodeSound.records_afterAdmission (h : InviterNodeSound x n) :
    (afterAdmission x network localId n.disk trust request nowSeconds answers).Always
      (AdmittedRecorded x n.admitted) := by
  apply always_afterAdmission h.recorded
  · intro name id hid hname
    subst hname
    rw [invitedOrKnown_lookup_peer]
    exact h.recorded.now _ id hid rfl
  · intro name id hid hname
    subst hname
    rcases @admitJoin_lookup_peer x network localId trust n.disk.now request nowSeconds answers
      id with ⟨-, hkeep⟩ | ⟨hself, hendpoint, hbinding, hrecord⟩
    · rw [hkeep]
      exact h.recorded.now _ id hid rfl
    · exact ⟨requestedPeer request, hrecord, hself.symm, hendpoint, hbinding⟩

theorem afterAdmission_admitted
    (hadmitted : (admitJoin x network localId trust n.disk.now request nowSeconds answers).1 = true) :
    afterAdmission x network localId n.disk trust request nowSeconds answers
      = Medium.sync _ (admitJoin x network localId trust n.disk.now request nowSeconds
        answers).2.2 := by
  unfold afterAdmission
  dsimp only
  rw [hadmitted, if_pos rfl]

/-- The peer of an admitted request is on record and trusted, beside all who
were before. -/
theorem InviterNodeSound.admits (h : InviterNodeSound x n) (htrust : n.trust = some trust)
    (hadmitted : (admitJoin x network localId trust n.disk.now request nowSeconds answers).1 = true) :
    (afterAdmission x network localId n.disk trust request nowSeconds answers).Always
        (AdmittedRecorded x (n.admitted ++ [request.nodeId]))
      ∧ LowerBound.Sorted TrustedPeer.id
        (admitJoin x network localId trust n.disk.now request nowSeconds answers).2.1.peers
      ∧ ∀ id ∈ n.admitted ++ [request.nodeId], trustContains
        (admitJoin x network localId trust n.disk.now request nowSeconds answers).2.1 id = true := by
  have hsorted := h.sorted trust htrust
  rcases admitJoin_cases (x := x) network localId trust n.disk.now request nowSeconds answers with
    ⟨hno, -⟩ | ⟨-, -, hendpoint, hbinding, hput⟩
  · rw [hno] at hadmitted
    cases hadmitted
  · have hsorted' : LowerBound.Sorted TrustedPeer.id
        (admitJoin x network localId trust n.disk.now request nowSeconds answers).2.1.peers := by
      rw [hput]
      exact LowerBound.put_sorted hsorted _
    refine ⟨?_, hsorted', ?_⟩
    · intro name c hc id hid hname
      rcases List.mem_append.mp hid with hold | hnew
      · exact h.records_afterAdmission name c hc id hold hname
      · rw [List.mem_singleton] at hnew
        subst hname hnew
        rw [afterAdmission_admitted hadmitted] at hc
        rw [Set.mem_singleton_iff.mp hc]
        rcases @admitJoin_lookup_peer x network localId trust n.disk.now request nowSeconds answers
          request.nodeId with ⟨hfailed, -⟩ | ⟨-, -, -, hrecord⟩
        · rw [hfailed rfl] at hadmitted
          cases hadmitted
        · exact ⟨requestedPeer request, hrecord, rfl, hendpoint, hbinding⟩
    · intro id hid
      rw [trustContains_iff hsorted', hput]
      by_cases hself : id = request.nodeId
      · exact ⟨requestedPeer request, (LowerBound.mem_put hsorted).mpr (.inl rfl), hself.symm⟩
      · have hold : id ∈ n.admitted :=
          (List.mem_append.mp hid).resolve_right fun hnew => hself (List.mem_singleton.mp hnew)
        obtain ⟨peer, hpeer, hid'⟩ :=
          (trustContains_iff hsorted id).mp (h.trusted trust htrust id hold)
        refine ⟨peer, (LowerBound.mem_put hsorted).mpr (.inr ⟨hpeer, ?_⟩), hid'⟩
        rw [hid']
        exact hself

/-- The ticket that an admitted request shows was not shown by one before, and
is gone from the disk for good. -/
theorem InviterNodeSound.honours (h : InviterNodeSound x n) (htrust : n.trust = some trust)
    (hadmitted : (admitJoin x network localId trust n.disk.now request nowSeconds answers).1 = true) :
    (∀ t ∈ n.honoured ++ (shownTicket x request).toList, t ∈ n.issued)
      ∧ ((n.honoured ++ (shownTicket x request).toList).map InviteTicket.secret).Nodup
      ∧ (afterAdmission x network localId n.disk trust request nowSeconds answers).Always
        (HonouredGone (n.honoured ++ (shownTicket x request).toList)) := by
  rcases admitted_justified (h.running htrust) hadmitted with
    ⟨htoken, -⟩ | ⟨ticket, ⟨hissued, hdecode, hfile, -⟩, hremoved⟩
  · have hnone : shownTicket x request = none := by
      rw [shownTicket, htoken]
      rfl
    rw [hnone, Option.toList_none, List.append_nil]
    exact ⟨h.issued, h.once, h.tickets_afterAdmission.2⟩
  · have hone : shownTicket x request = some ticket := by
      rw [shownTicket, hdecode]
    rw [hone, Option.toList_some]
    refine ⟨?_, ?_, ?_⟩
    · intro t ht
      rcases List.mem_append.mp ht with hold | hnew
      · exact h.issued t hold
      · rw [List.mem_singleton.mp hnew]
        exact hissued
    · -- its file was there, so it had not been honoured before
      rw [List.map_append, List.map_singleton, ← List.concat_eq_append, List.nodup_concat]
      refine ⟨fun hmem => ?_, h.once⟩
      obtain ⟨t, ht, hsecret⟩ := List.mem_map.mp hmem
      have hgone : n.disk.now.lookup (invitePath t.secret) = none := h.gone.now _ t ht rfl
      rw [hsecret] at hgone
      rw [hgone] at hfile
      cases hfile
    · intro name c hc t ht hname
      rcases List.mem_append.mp ht with hold | hnew
      · exact h.tickets_afterAdmission.2 name c hc t hold hname
      · rw [List.mem_singleton.mp hnew] at hname
        subst hname
        rw [afterAdmission_admitted hadmitted] at hc
        rw [Set.mem_singleton_iff.mp hc]
        exact (admitJoin_lookup_other network localId trust n.disk.now request nowSeconds answers
          (Ne.symm (peerPath_ne_invitePath request.nodeId ticket.secret))
          (notTemporary_invitePath ticket.secret)).trans hremoved

theorem inviterNodeStep_request (h : InviterNodeSound x n) (request : JoinRequest)
    (nowSeconds : UInt64) (answers : AdmissionAnswers) :
    InviterNodeSound x
      (inviterNodeStep x network localId identityFile n (.request request nowSeconds answers)) := by
  unfold inviterNodeStep
  cases htrust : n.trust with
  | none => exact h
  | some trust =>
      dsimp only
      cases hadmitted : (admitJoin x network localId trust n.disk.now request nowSeconds answers).1 with
      | false =>
          have hsame : (admitJoin x network localId trust n.disk.now request nowSeconds
              answers).2.1 = trust := by
            rcases admitJoin_cases (x := x) network localId trust n.disk.now request nowSeconds
              answers with ⟨-, hsame⟩ | ⟨hyes, -⟩
            · exact hsame
            · rw [hadmitted] at hyes
              cases hyes
          rw [hsame, if_neg Bool.false_ne_true, if_neg Bool.false_ne_true]
          exact ⟨fun trust' ht => h.sorted trust' (htrust ▸ ht),
            fun trust' ht => h.trusted trust' (htrust ▸ ht), h.tickets_afterAdmission.1,
            h.tickets_afterAdmission.2, h.records_afterAdmission, h.issued, h.once⟩
      | true =>
          obtain ⟨hrecorded, hsorted, htrusted⟩ := h.admits htrust hadmitted
          obtain ⟨hissued, honce, hgone⟩ := h.honours htrust hadmitted
          rw [if_pos rfl, if_pos rfl]
          refine ⟨?_, ?_, h.tickets_afterAdmission.1, hgone, hrecorded, hissued, honce⟩
          · intro trust' ht
            cases ht
            exact hsorted
          · intro trust' ht
            cases ht
            exact htrusted

end

/-! ## Stopping and starting -/

theorem inviterNodeStep_stop {n : InviterNode} (h : InviterNodeSound x n) {left : Option Directory}
    (hloss : LossPossible n (.stop left)) :
    InviterNodeSound x (inviterNodeStep x network localId identityFile n (.stop left)) := by
  cases left with
  | none => exact { h with sorted := by simp [inviterNodeStep], trusted := by simp [inviterNodeStep] }
  | some left =>
      have hleaves := hloss left rfl
      refine ⟨by simp [inviterNodeStep], by simp [inviterNodeStep], h.files.leaves hleaves ?_,
        h.gone.leaves hleaves ?_, h.recorded.leaves hleaves ?_, h.issued, h.once⟩
      · rintro name contents htemporary secret rfl
        exact absurd (notTemporary_invitePath secret) htemporary
      · rintro name contents htemporary t - rfl
        exact absurd (notTemporary_invitePath t.secret) htemporary
      · rintro name contents htemporary id - rfl
        exact absurd (notTemporary_peerPath id) htemporary

/-- Whoever was admitted is on record, so a start that succeeds trusts it. -/
theorem inviterNodeStep_start {n : InviterNode} (h : InviterNodeSound x n) (answers : LoadAnswers) :
    InviterNodeSound x (inviterNodeStep x network localId identityFile n (.start answers)) := by
  have hloaded : ∀ trust, (trustLoad x n.disk.now identityFile answers).toOption = some trust →
      trustLoad x n.disk.now identityFile answers = .ok trust := by
    intro trust htrust
    cases hload : trustLoad x n.disk.now identityFile answers with
    | error e =>
        rw [hload] at htrust
        cases htrust
    | ok loaded =>
        rw [hload] at htrust
        cases htrust
        rfl
  refine { h with sorted := fun trust htrust => ?_, trusted := fun trust htrust id hid => ?_ }
  · exact (trustLoad_ok (hloaded trust htrust)).2.2.2.1
  · obtain ⟨-, -, -, hsorted, hmem, -⟩ := trustLoad_ok (hloaded trust htrust)
    obtain ⟨peer, hrecord, rfl, hendpoint, hbinding⟩ := h.recorded.now _ id hid rfl
    refine (trustContains_iff hsorted _).mpr ⟨peer, (hmem peer).mpr (mem_records.mpr ?_), rfl⟩
    exact ⟨encodePeer peer, hrecord, encodePeer_length (validEndpoint_iff.mp hendpoint).2.1,
      decodePeer_encodePeer hendpoint hbinding⟩

/-! ## Runs -/

/-- A ticket is issued with a new secret. -/
def SecretNew (n : InviterNode) : InviterEvent → Prop
  | .store _ ticket _ => ticket.secret ∉ n.issued.map InviteTicket.secret
  | _ => True

theorem inviterNodeStep_issued (n : InviterNode) (event : InviterEvent) :
    (inviterNodeStep x network localId identityFile n event).issued.map InviteTicket.secret
      = n.issued.map InviteTicket.secret ++ event.secret.toList := by
  cases event with
  | store trust ticket answers => simp [inviterNodeStep, InviterEvent.secret]
  | request request nowSeconds answers =>
      unfold inviterNodeStep
      cases n.trust <;> simp [InviterEvent.secret]
  | stop left => cases left <;> simp [inviterNodeStep, InviterEvent.secret]
  | start answers => simp [inviterNodeStep, InviterEvent.secret]

theorem secretNew_of_distinct {events : List InviterEvent} {n : InviterNode}
    (hdistinct : (n.issued.map InviteTicket.secret
      ++ events.filterMap InviterEvent.secret).Nodup) :
    Run.Along (inviterNodeStep x network localId identityFile) SecretNew n events := by
  induction events generalizing n with
  | nil => trivial
  | cons event events ih =>
      have hsplit : (event :: events).filterMap InviterEvent.secret
          = event.secret.toList ++ events.filterMap InviterEvent.secret := by
        rw [List.filterMap_cons]
        cases event.secret <;> rfl
      rw [hsplit] at hdistinct
      refine ⟨?_, ih ?_⟩
      · cases event with
        | store trust ticket answers =>
            intro hmem
            exact (List.nodup_append.mp hdistinct).2.2 _ hmem _ (by simp [InviterEvent.secret]) rfl
        | request request nowSeconds answers => trivial
        | stop left => trivial
        | start answers => trivial
      · rwa [inviterNodeStep_issued, List.append_assoc]

theorem inviterNodeStep_sound {n : InviterNode} {event : InviterEvent} (h : InviterNodeSound x n)
    (hloss : LossPossible n event) (hnew : SecretNew n event) :
    InviterNodeSound x (inviterNodeStep x network localId identityFile n event) := by
  cases event with
  | store trust ticket answers => exact inviterNodeStep_store h hnew trust answers
  | request request nowSeconds answers => exact inviterNodeStep_request h request nowSeconds answers
  | stop left => exact inviterNodeStep_stop h hloss
  | start answers => exact inviterNodeStep_start h answers

def notStarted (d : Directory) : InviterNode where
  trust := none
  disk := Medium.sync _ d
  issued := []
  honoured := []
  admitted := []

theorem notStarted_sound {d : Directory} (hnone : ∀ secret, d.lookup (invitePath secret) = none) :
    InviterNodeSound x (notStarted d) where
  sorted := by simp [notStarted]
  trusted := by simp [notStarted]
  files := by
    apply Medium.always_sync
    intro name secret hname bytes hbytes
    subst hname
    rw [hnone secret] at hbytes
    cases hbytes
  gone := Medium.always_sync (by simp [HonouredGone, notStarted])
  recorded := Medium.always_sync (by simp [AdmittedRecorded, notStarted])
  issued := by simp [notStarted]
  once := List.nodup_nil

/-- In every run with distinct secrets, wherever in it the node is killed or
loses its power and whatever a loss then leaves of what was not flushed: each
issued ticket is shown by at most one admitted request, and whenever the node
runs it trusts everybody it has ever admitted. -/
theorem admissions_survive_power_loss {d : Directory} {events : List InviterEvent}
    (hnone : ∀ secret, d.lookup (invitePath secret) = none)
    (hdistinct : (events.filterMap InviterEvent.secret).Nodup)
    (hloss : Run.Along (inviterNodeStep x network localId identityFile) LossPossible (notStarted d)
      events) :
    Run.Throughout (inviterNodeStep x network localId identityFile)
      (fun n => (∀ ticket ∈ n.issued, n.honoured.count ticket ≤ 1)
        ∧ ∀ trust ∈ n.trust, ∀ id ∈ n.admitted, trustContains trust id = true)
      (notStarted d) events := by
  have hnew : Run.Along (inviterNodeStep x network localId identityFile) SecretNew (notStarted d)
      events := secretNew_of_distinct hdistinct
  have hsound : Run.Throughout (inviterNodeStep x network localId identityFile)
      (InviterNodeSound x) (notStarted d) events :=
    Run.throughout_of_along (fun n event h hboth => inviterNodeStep_sound h hboth.1 hboth.2)
      (notStarted_sound hnone) (Run.along_and.mpr ⟨hloss, hnew⟩)
  refine hsound.mono fun n h => ⟨fun ticket _ => ?_, h.trusted⟩
  exact List.nodup_iff_count_le_one.mp h.once.of_map ticket

/-- The directory once the first newcomer is admitted. -/
@[irreducible] def admittedDirectory : Directory :=
  (admitJoin posix sampleNetwork sampleInviter emptyTrust
    (inviteStore posix emptyTrust ∅ sampleTicket
      { ensureDirectory := none, lock := .success (zero 16), read := fun _ => none
        removeExpired := fun _ => none, iterate := none, inspectPath := none
        write := .success (zero 16) }).2
    (sampleRequest (numberedPeer 1)) 100 (sampleAnswers none)).2.2

def firstAdmission : List InviterEvent :=
  [.start .success,
    .store emptyTrust sampleTicket
      { ensureDirectory := none, lock := .success (zero 16), read := fun _ => none
        removeExpired := fun _ => none, iterate := none, inspectPath := none
        write := .success (zero 16) },
    .request (sampleRequest (numberedPeer 1)) 100 (sampleAnswers none)]

/-- The power is lost, and another newcomer shows the same token. -/
def afterLoss : List InviterEvent :=
  [.stop (some admittedDirectory), .start .success,
    .request (sampleRequest (numberedPeer 2)) 101 (sampleAnswers none)]

theorem along_afterLoss {n : InviterNode} (hnow : n.disk.now = admittedDirectory) :
    Run.Along (inviterNodeStep posix sampleNetwork sampleInviter (ascii "identity")) LossPossible n
      afterLoss := by
  refine ⟨?_, by simp [LossPossible], by simp [LossPossible], trivial⟩
  intro left hstop name _
  cases hstop
  rw [← hnow]
  exact n.disk.here name

theorem admittedDirectory_now :
    (Run.final (inviterNodeStep posix sampleNetwork sampleInviter (ascii "identity"))
      (notStarted ∅) firstAdmission).disk.now = admittedDirectory :=
  AList.ext (by decide +kernel)

theorem admissions_survive_power_loss_of_one :
    Run.Throughout (inviterNodeStep posix sampleNetwork sampleInviter (ascii "identity"))
      (fun n => (∀ ticket ∈ n.issued, n.honoured.count ticket ≤ 1)
        ∧ ∀ trust ∈ n.trust, ∀ id ∈ n.admitted, trustContains trust id = true)
      (notStarted ∅) (firstAdmission ++ afterLoss) := by
  have hnone : ∀ secret, (∅ : Directory).lookup (invitePath secret) = none := fun secret => rfl
  have hdistinct : ((firstAdmission ++ afterLoss).filterMap InviterEvent.secret).Nodup := by
    decide
  have hadmission : Run.Along (inviterNodeStep posix sampleNetwork sampleInviter (ascii "identity"))
      LossPossible (notStarted ∅) firstAdmission :=
    ⟨by simp [LossPossible], by simp [LossPossible], by simp [LossPossible], trivial⟩
  exact admissions_survive_power_loss hnone hdistinct
    (Run.along_append.mpr ⟨hadmission, along_afterLoss admittedDirectory_now⟩)

end Madoka

import Madoka.Security.Invite
import Madoka.Security.TrustStore

/-!
# Canonical

The two texts of `security/invite.cpp`, the invitation token and the record
of a trusted peer, name one value each: what is written is read back, and a
text that is read is the text that would be written.
-/

namespace Madoka

open Octets

/-! ## The invitation token -/

theorem inviteDecode_injective {x : External} {encoded encoded' : Bytes} {ticket : InviteTicket}
    (h : inviteDecode x encoded = .ok ticket) (h' : inviteDecode x encoded' = .ok ticket) :
    encoded = encoded' :=
  (inviteDecode_ok h).2.2.symm.trans (inviteDecode_ok h').2.2

/-- A ticket is refused, or its token is short enough and stands for all its
fields; and a token that is accepted is the only one of its ticket. -/
theorem inviteToken_canonical (x : External) :
    (∀ ticket, inviteEncode x ticket = []
      ∨ (inviteEncode x ticket).length ≤ 512
        ∧ inviteDecode x (inviteEncode x ticket) = .ok { ticket with consumed := false })
    ∧ (∀ encoded ticket, inviteDecode x encoded = .ok ticket → inviteEncode x ticket = encoded)
    ∧ ∀ encoded encoded' ticket, inviteDecode x encoded = .ok ticket →
        inviteDecode x encoded' = .ok ticket → encoded = encoded' := by
  constructor
  · intro ticket
    by_cases hempty : inviteEncode x ticket = []
    · exact .inl hempty
    · exact .inr ⟨inviteEncode_length ticket, inviteDecode_encode hempty⟩
  · constructor
    · intro encoded ticket h
      exact (inviteDecode_ok h).2.2
    · intro encoded encoded' ticket h h'
      exact inviteDecode_injective h h'

/-- An hour's invitation to a loopback node. -/
def loopbackTicket : InviteTicket where
  network := leading 0xfd 15
  secret := repeated 16 7
  inviterId := (numberedPeer 0).id
  inviterEndpoint := ascii "127.0.0.1:9000"
  createdAt := 1
  expiresAt := 3601
  consumed := false

theorem inviteToken_canonical_loopback :
    inviteDecode posix (inviteEncode posix loopbackTicket) = .ok loopbackTicket
      ∧ ∀ encoded, inviteDecode posix encoded = .ok loopbackTicket →
        inviteEncode posix loopbackTicket = encoded := by
  have hcanonical := inviteToken_canonical posix
  have hvalid : inviteEncode posix loopbackTicket ≠ [] := by decide
  constructor
  · rcases hcanonical.1 loopbackTicket with hempty | ⟨-, hread⟩
    · exact absurd hempty hvalid
    · exact hread
  · intro encoded h
    exact hcanonical.2.1 encoded loopbackTicket h

/-! ## The record of a trusted peer -/

theorem decodePeer_iff {x : External} {text : Bytes} {peer : TrustedPeer} :
    decodePeer x text = .ok peer ↔ validEndpoint x peer.endpoint = true
      ∧ validIdentityBinding x peer = true ∧ encodePeer peer = text := by
  constructor
  · intro h
    exact decodePeer_ok h
  · intro h
    obtain ⟨hendpoint, hbinding, rfl⟩ := h
    exact decodePeer_encodePeer hendpoint hbinding

/-- A peer that `trust_add` accepts has a record within the limit of the
reader, which gives it back, and no other text is a record of it. -/
theorem peerRecord_canonical (x : External) :
    (∀ peer, validEndpoint x peer.endpoint = true → validIdentityBinding x peer = true →
      (encodePeer peer).length ≤ 1024 ∧ decodePeer x (encodePeer peer) = .ok peer)
    ∧ (∀ text peer, decodePeer x text = .ok peer → encodePeer peer = text)
    ∧ ∀ text text' peer, decodePeer x text = .ok peer → decodePeer x text' = .ok peer →
        text = text' := by
  constructor
  · intro peer hendpoint hbinding
    have hlength := (validEndpoint_iff.mp hendpoint).2.1
    exact ⟨encodePeer_length hlength, decodePeer_encodePeer hendpoint hbinding⟩
  · constructor
    · intro text peer h
      exact (decodePeer_ok h).2.2
    · intro text text' peer h h'
      exact (decodePeer_iff.mp h).2.2.symm.trans (decodePeer_iff.mp h').2.2

theorem peerRecord_canonical_numbered :
    decodePeer posix (encodePeer (numberedPeer 1)) = .ok (numberedPeer 1)
      ∧ ∀ text, decodePeer posix text = .ok (numberedPeer 1) →
        encodePeer (numberedPeer 1) = text := by
  have hcanonical := peerRecord_canonical posix
  constructor
  · exact (hcanonical.1 (numberedPeer 1) (by decide) (by decide)).2
  · intro text h
    exact hcanonical.2.1 text (numberedPeer 1) h

end Madoka

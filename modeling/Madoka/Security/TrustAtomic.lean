import Madoka.Security.TrustStore

/-!
# Trust Atomicity

What a `trust_add` that fails leaves behind, at every step of the storage that
can fail: nothing, unless the directory cannot be flushed once the record has
been renamed into its place, or the clean-up fails too.
-/

namespace Madoka

open Octets

/-! ## One `trust_add` -/

/-- A call that fails leaves the peers, the record and the temporary files as
they were; one that succeeds leaves the new record in memory and on disk. -/
structure TrustAddAtomic (x : External) (state : TrustState) (d : Directory) (peer : TrustedPeer)
    (answers : TrustAddAnswers) : Prop where
  refused : ∀ e, (trustAdd x state d peer answers).1 = .error e →
    (trustAdd x state d peer answers).2.1 = state
      ∧ (trustAdd x state d peer answers).2.2.lookup (peerPath peer.id)
        = d.lookup (peerPath peer.id)
      ∧ ∀ random, temporaryName (peerPath peer.id) random
          ∈ (trustAdd x state d peer answers).2.2 → temporaryName (peerPath peer.id) random ∈ d
  stored : (trustAdd x state d peer answers).1 = .ok () →
    peer ∈ (trustAdd x state d peer answers).2.1.peers
      ∧ (trustAdd x state d peer answers).2.2.lookup (peerPath peer.id)
        = some (encodePeer peer)

section
variable {x : External} {state : TrustState} {d : Directory} {peer : TrustedPeer}
  {answers : TrustAddAnswers}

theorem mem_put_self (peers : List TrustedPeer) :
    peer ∈ LowerBound.put TrustedPeer.id peer peers := by
  induction peers with
  | nil => simp [LowerBound.put_nil]
  | cons existing peers ih =>
      rw [LowerBound.put_cons]
      split
      · exact List.mem_cons_of_mem _ ih
      · split <;> exact List.mem_cons_self

/-- At every point where the storage can fail: `trust_add` is atomic unless the
record was renamed into its place, is not what was there, and the directory
cannot be flushed; or a temporary file can neither be used nor removed. -/
theorem trustAdd_atomic_iff (x : External) (state : TrustState) (d : Directory)
    (peer : TrustedPeer) (answers : TrustAddAnswers) :
    TrustAddAtomic x state d peer answers
      ↔ ¬ (WritesRecord x state peer answers
        ∧ (Strays d (peerPath peer.id) answers.write
          ∨ Unsynced d (peerPath peer.id) answers.write
            ∧ d.lookup (peerPath peer.id) ≠ some (encodePeer peer))) := by
  rcases trustAdd_eq x state d peer answers with ⟨hno, e, heq⟩ | ⟨hwrites, heq⟩
  · refine iff_of_true ?_ fun h => hno h.1
    constructor
    · intro e' _
      rw [heq]
      exact ⟨rfl, rfl, fun _ h => h⟩
    · intro hok
      rw [heq] at hok
      cases hok
  · have hend := privateWriteAtomically_end d (peerPath peer.id) (encodePeer peer) answers.write
    have hlonger : ∀ random, temporaryName (peerPath peer.id) random ≠ peerPath peer.id :=
      fun random => temporaryName_ne random
    generalize privateWriteAtomically d (peerPath peer.id) (encodePeer peer) answers.write = result
      at hend heq
    cases hend with
    | refused e d' hunsynced hstrays hsame =>
        refine iff_of_true ⟨fun _ _ => ?_, fun hok => ?_⟩ fun h =>
          h.2.elim hstrays fun h => hunsynced h.1
        · rw [heq]
          refine ⟨rfl, hsame _, fun random hmem => ?_⟩
          rw [← AList.lookup_isSome] at hmem ⊢
          rwa [← hsame]
        · rw [heq] at hok
          cases hok
    | strayed e random stray hstrays hunsynced hnew =>
        -- the stray temporary is new
        refine iff_of_false (fun h => ?_) (not_not.mpr ⟨hwrites, .inl hstrays⟩)
        have hrefused := h.refused e (by rw [heq])
        rw [heq] at hrefused
        exact hnew (hrefused.2.2 random (by simp))
    | unsynced e d' hunsynced hsync hstrays hreplaced =>
        have hsame : d'.lookup (peerPath peer.id) = some (encodePeer peer) := by
          rw [hreplaced, if_pos rfl]
        by_cases hold : d.lookup (peerPath peer.id) = some (encodePeer peer)
        · refine iff_of_true ⟨fun _ _ => ?_, fun hok => ?_⟩ fun h =>
            h.2.elim hstrays fun h => h.2 hold
          · rw [heq]
            refine ⟨rfl, hsame.trans hold.symm, fun random hmem => ?_⟩
            rw [← AList.lookup_isSome] at hmem ⊢
            rwa [hreplaced, if_neg (hlonger random)] at hmem
          · rw [heq] at hok
            cases hok
        · refine iff_of_false (fun h => ?_) (not_not.mpr ⟨hwrites, .inr ⟨hunsynced, hold⟩⟩)
          have hrefused := h.refused e (by rw [heq])
          rw [heq] at hrefused
          exact hold (hrefused.2.1.symm.trans hsame)
    | stored d' hunsynced hstrays hreplaced =>
        refine iff_of_true ⟨fun e he => ?_, fun _ => ?_⟩ fun h =>
          h.2.elim hstrays fun h => hunsynced h.1
        · rw [heq] at he
          cases he
        · rw [heq]
          refine ⟨mem_put_self _, ?_⟩
          dsimp only
          rw [hreplaced, if_pos rfl]

end

/-- The directory cannot be flushed after the rename. -/
def unsyncedAnswers : TrustAddAnswers where
  ensureDirectory := none
  write := { WriteAnswers.success (zero 16) with syncDirectory := some "Directory fsync failed" }

/-- The call fails and the peer is not in memory, but its record is on disk and
is loaded when the node starts again. -/
theorem trustAdd_not_atomic :
    (¬ ∀ (x : External) (state : TrustState) (d : Directory) (peer : TrustedPeer)
        (answers : TrustAddAnswers), TrustAddAtomic x state d peer answers)
      ∧ (trustAdd posix emptyTrust ∅ (numberedPeer 0) unsyncedAnswers).1
        = .error "Directory fsync failed"
      ∧ trustLoad posix (trustAdd posix emptyTrust ∅ (numberedPeer 0) unsyncedAnswers).2.2
          (ascii "identity") .success
        = .ok { emptyTrust with peers := [numberedPeer 0] } := by
  have herror : (trustAdd posix emptyTrust ∅ (numberedPeer 0) unsyncedAnswers).1
      = .error "Directory fsync failed" := by
    decide
  refine ⟨fun h => ?_, herror, by decide +kernel⟩
  have hrecord := ((h posix emptyTrust ∅ (numberedPeer 0) unsyncedAnswers).refused _ herror).2.1
  exact absurd hrecord (by decide)

end Madoka

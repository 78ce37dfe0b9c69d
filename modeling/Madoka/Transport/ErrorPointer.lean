import Madoka.Transport.Framing

/-!
# Error Pointer

`transport_receive` with a null error pointer against a call with an error
string: the same reads, the same result and the same session, unless a
malformed header is met. With a string that closes the session at once; without
one the call reads on.
-/

namespace Madoka

open Octets

/-- What a caller can see of a call but its error text: the message, whether
the connection was closed, the session, and the reads that are left. -/
def observed (result : Option ReceiveReply × TransportSessionState × List ReadOutcome) :
    Option (Option Message × Bool) × TransportSessionState × List ReadOutcome :=
  (result.1.map fun reply => (reply.message, reply.connectionClosed), result.2)

/-- A buffer whose first bytes are a header, and one that is no message's. -/
def BadHeader (bytes : Bytes) : Prop :=
  headerSize ≤ bytes.length ∧ ∀ size, messagePeekSize bytes ≠ .ok size

/-- The layer can be read from. -/
def readable (session : TransportSessionState) : Bool :=
  if session.isTls then session.tls.nativeSsl && session.tls.established else session.socket

/-! ## The header -/

/-- Only the header is looked at. -/
theorem messagePeekSize_append {bytes : Bytes} (h : headerSize ≤ bytes.length) (more : Bytes) :
    messagePeekSize (bytes ++ more) = messagePeekSize bytes := by
  match bytes, h with
  | _ :: _ :: _ :: _ :: _, _ => rfl

theorem BadHeader.append {bytes : Bytes} (h : BadHeader bytes) (more : Bytes) :
    BadHeader (bytes ++ more) := by
  refine ⟨?_, fun size => ?_⟩
  · rw [List.length_append]
    exact h.1.trans (Nat.le_add_right _ _)
  · rw [messagePeekSize_append h.1]
    exact h.2 size

theorem badHeader_append_iff {bytes : Bytes} (h : headerSize ≤ bytes.length) (more : Bytes) :
    BadHeader (bytes ++ more) ↔ BadHeader bytes := by
  refine ⟨fun hbad => ⟨h, fun size => ?_⟩, fun hbad => hbad.append more⟩
  rw [← messagePeekSize_append h more]
  exact hbad.2 size

/-- A malformed header has an error text, and not the empty one. -/
theorem BadHeader.error {bytes : Bytes} (h : BadHeader bytes) :
    ∃ text, messagePeekSize bytes = .error (some text) ∧ text ≠ "" := by
  obtain ⟨hlength, hnot⟩ := h
  match bytes, hlength with
  | version :: typeRaw :: high :: low :: rest, _ =>
      simp only [messagePeekSize] at hnot ⊢
      split
      next => exact ⟨_, rfl, fun h => absurd (String.append_eq_empty_iff.mp h).1 (by decide)⟩
      next hversion =>
        rw [if_neg hversion] at hnot
        split
        next => exact ⟨_, rfl, fun h => absurd (String.append_eq_empty_iff.mp h).1 (by decide)⟩
        next htype =>
          rw [if_neg htype] at hnot
          split
          next =>
            refine ⟨_, rfl, fun h => ?_⟩
            have hprefix := (String.append_eq_empty_iff.mp h).1
            have hprefix := (String.append_eq_empty_iff.mp hprefix).1
            have hprefix := (String.append_eq_empty_iff.mp hprefix).1
            have hprefix := (String.append_eq_empty_iff.mp hprefix).1
            exact absurd hprefix (by decide)
          next hsize =>
            rw [if_neg hsize] at hnot
            exact absurd rfl (hnot _)

/-! ## The buffer half of a turn -/

section
variable {session : TransportSessionState} (text : String) (errno : Errno)

/-- Without a malformed header, the two calls do the same with the buffer. -/
theorem takeBuffered_agree (hgood : ¬ BadHeader session.recvBuffer) :
    (∃ message e e' session', takeBuffered session none = (.ok ⟨message, false, e⟩, session')
        ∧ takeBuffered session (some text) = (.ok ⟨message, false, e'⟩, session'))
      ∨ takeBuffered session none = (.error none, session)
        ∧ takeBuffered session (some text) = (.error (some text), session) := by
  unfold takeBuffered
  by_cases hshort : session.recvBuffer.length < headerSize
  · rw [if_pos hshort, if_pos hshort]
    exact .inr ⟨rfl, rfl⟩
  · rw [if_neg hshort, if_neg hshort]
    cases hpeek : messagePeekSize session.recvBuffer with
    | error peekError =>
        refine absurd ⟨not_lt.mp hshort, fun size => ?_⟩ hgood
        rw [hpeek]
        exact fun h => nomatch h
    | ok size =>
        dsimp only
        split
        next => exact .inl ⟨_, _, _, _, rfl, rfl⟩
        next =>
          split
          next =>
            cases messageDecode (session.recvBuffer.take size) with
            | error decodeError => exact .inl ⟨_, _, _, _, rfl, rfl⟩
            | ok message => exact .inl ⟨_, _, _, _, rfl, rfl⟩
          next => exact .inr ⟨rfl, rfl⟩

/-- At a malformed header only the call with a string stops. -/
theorem takeBuffered_bad (hbad : BadHeader session.recvBuffer) :
    takeBuffered session none = (.error none, session)
      ∧ ∃ e, takeBuffered session (some text) = (.ok ⟨none, false, e⟩, transportClose session) := by
  obtain ⟨peekError, hpeek, hne⟩ := hbad.error
  unfold takeBuffered
  rw [if_neg (not_lt.mpr hbad.1), if_neg (not_lt.mpr hbad.1), hpeek]
  refine ⟨rfl, some peekError, ?_⟩
  simp [setError, hne]

/-! ## The read of a turn -/

/-- Two turns that do the same, the first without an error string. -/
inductive SameTurn : Turn → Turn → Prop where
  | stopped (message : Option Message) (closed : Bool) (e e' : Option String) (consumed : Bool) :
      SameTurn (.stopped ⟨message, closed, e⟩ consumed) (.stopped ⟨message, closed, e'⟩ consumed)
  | waiting : SameTurn .waiting .waiting
  | again (text : String) (errno : Errno) : SameTurn (.again none errno) (.again (some text) errno)

/-- What a layer hands back with an error string differs in the text only. -/
structure SameRead (result result' : ReadResult) : Prop where
  bytesRead : result.bytesRead = result'.bytesRead
  connectionClosed : result.connectionClosed = result'.connectionClosed
  errno : result.errno = result'.errno
  error : result.error = none ∧ ∃ text, result'.error = some text

theorem socketRecv_agree (outcome : Option ReadOutcome) :
    Option.Rel SameRead (socketRecv session none errno outcome)
      (socketRecv session (some text) errno outcome) := by
  unfold socketRecv
  split
  · exact .some ⟨rfl, rfl, rfl, rfl, _, rfl⟩
  · cases outcome with
    | none => exact .none
    | some outcome =>
        cases outcome with
        | data bytes => exact .some ⟨rfl, rfl, rfl, rfl, _, rfl⟩
        | closed => exact .some ⟨rfl, rfl, rfl, rfl, _, rfl⟩
        | failed failure => exact .some ⟨rfl, rfl, rfl, rfl, _, rfl⟩

theorem tlsReceive_agree (tls : TlsSession) (outcome : Option ReadOutcome) :
    Option.Rel SameRead (tlsReceive tls none errno outcome).1
        (tlsReceive tls (some text) errno outcome).1
      ∧ (tlsReceive tls none errno outcome).2 = (tlsReceive tls (some text) errno outcome).2 := by
  unfold tlsReceive
  split
  · exact ⟨.some ⟨rfl, rfl, rfl, rfl, _, rfl⟩, rfl⟩
  · cases outcome with
    | none => exact ⟨.none, rfl⟩
    | some outcome =>
        cases outcome with
        | data bytes => exact ⟨.some ⟨rfl, rfl, rfl, rfl, _, rfl⟩, rfl⟩
        | closed => exact ⟨.some ⟨rfl, rfl, rfl, rfl, _, rfl⟩, rfl⟩
        | failed failure =>
            cases hcode : failure.code with
            | syscall =>
                simp only [hcode]
                split
                · exact ⟨.some ⟨rfl, rfl, rfl, rfl, _, rfl⟩, rfl⟩
                · exact ⟨.some ⟨rfl, rfl, rfl, rfl, _, rfl⟩, rfl⟩
            | other code =>
                simp only [hcode]
                exact ⟨.some ⟨rfl, rfl, rfl, rfl, _, rfl⟩, trivial⟩

/-- What a turn makes of the read its layer hands back. -/
def turnOf (session : TransportSessionState) (consumed : Bool) :
    Option ReadResult → Turn × TransportSessionState
  | none => (.waiting, session)
  | some result =>
      match result.bytesRead with
      | none =>
          if socketIsTimeoutError result.errno then
            (.stopped ⟨none, false, result.error.map fun _ => ""⟩ consumed, session)
          else (.stopped ⟨none, false, result.error⟩ consumed, transportClose session)
      | some bytes =>
          if bytes = [] ∧ result.connectionClosed then
            (.stopped ⟨none, true, result.error⟩ consumed, transportClose session)
          else
            (.again result.error result.errno,
              { session with recvBuffer := session.recvBuffer ++ bytes })

theorem turnOf_agree {result result' : Option ReadResult} (consumed : Bool)
    (h : Option.Rel SameRead result result') :
    SameTurn (turnOf session consumed result).1 (turnOf session consumed result').1
      ∧ (turnOf session consumed result).2 = (turnOf session consumed result').2 := by
  cases h with
  | none => exact ⟨.waiting, rfl⟩
  | @some read read' hread =>
      obtain ⟨hbytes, hclosed, herrno, hnone, text', htext⟩ := hread
      simp only [turnOf, ← hbytes, ← hclosed, ← herrno]
      cases hmoved : read.bytesRead with
      | none =>
          dsimp only
          split
          · exact ⟨.stopped _ _ _ _ _, rfl⟩
          · exact ⟨.stopped _ _ _ _ _, rfl⟩
      | some bytes =>
          dsimp only
          split
          · exact ⟨.stopped _ _ _ _ _, rfl⟩
          · rw [hnone, htext]
            exact ⟨.again _ _, rfl⟩

theorem transportClose_empty (session : TransportSessionState) :
    (transportClose session).recvBuffer = [] := by
  unfold transportClose
  split <;> rfl

/-- A read below the buffer limit. -/
theorem readMore_eq (hroom : session.recvBuffer.length < maxRecvBufferSize)
    (error : Option String) (outcome : Option ReadOutcome) :
    readMore session error errno outcome
      = if session.isTls then
          turnOf { session with tls := (tlsReceive session.tls error errno outcome).2 }
            (readable session) (tlsReceive session.tls error errno outcome).1
        else turnOf session (readable session) (socketRecv session error errno outcome) := by
  have hcleared : ∀ (closing : TransportSessionState) (e : Option String),
      (if (transportClose closing).recvBuffer ≠ [] then
        setError e "Connection closed cleanly by peer with incomplete message in buffer" else e)
        = e := by
    intro closing e
    rw [transportClose_empty, if_neg (not_not.mpr rfl)]
  unfold readMore
  rw [if_neg (not_le.mpr hroom)]
  obtain ⟨socket, tls, isTls, recvBuffer, isOpen⟩ := session
  cases isTls with
  | true =>
      simp only [if_true, hcleared, readable]
      rfl
  | false =>
      simp only [Bool.false_eq_true, if_false, hcleared, readable]
      rfl

/-- The two calls do the same with a read. -/
theorem readMore_agree (outcome : Option ReadOutcome) :
    SameTurn (readMore session none errno outcome).1
        (readMore session (some text) errno outcome).1
      ∧ (readMore session none errno outcome).2
        = (readMore session (some text) errno outcome).2 := by
  by_cases hroom : session.recvBuffer.length < maxRecvBufferSize
  · rw [readMore_eq errno hroom, readMore_eq errno hroom]
    split
    · obtain ⟨hread, htls⟩ := tlsReceive_agree text errno session.tls outcome
      rw [← htls]
      exact turnOf_agree _ hread
    · exact turnOf_agree _ (socketRecv_agree text errno outcome)
  · unfold readMore
    rw [if_pos (not_lt.mp hroom), if_pos (not_lt.mp hroom)]
    exact ⟨.stopped _ _ _ _ _, rfl⟩

end

/-! ## A read where nothing can be read, and one where it can -/

section
variable {session : TransportSessionState} (error : Option String) (errno : Errno)

/-- A layer that cannot be read from fails with the `errno` there was, and no
read takes place. -/
theorem readMore_unreadable (hroom : session.recvBuffer.length < maxRecvBufferSize)
    (hunreadable : readable session = false) (outcome : Option ReadOutcome) :
    ∃ e, readMore session error errno outcome
      = (.stopped ⟨none, false, e⟩ false,
          if socketIsTimeoutError errno then session else transportClose session) := by
  rw [readMore_eq errno hroom, hunreadable]
  simp only [readable] at hunreadable
  by_cases htls : session.isTls = true
  · rw [if_pos htls] at hunreadable ⊢
    simp only [tlsReceive, hunreadable, Bool.not_false, if_true, turnOf]
    split
    · exact ⟨_, rfl⟩
    · exact ⟨_, rfl⟩
  · rw [if_neg htls] at hunreadable ⊢
    simp only [socketRecv, hunreadable, Bool.not_false, if_true, turnOf]
    split
    · exact ⟨_, rfl⟩
    · exact ⟨_, rfl⟩

theorem turnOf_consumed {result : Option ReadResult} {reply : ReceiveReply} {consumed taken : Bool}
    (h : (turnOf session consumed result).1 = .stopped reply taken) : taken = consumed := by
  cases result with
  | none => cases h
  | some read =>
      simp only [turnOf] at h
      cases hmoved : read.bytesRead with
      | none =>
          rw [hmoved] at h
          dsimp only at h
          split at h <;> cases h <;> rfl
      | some bytes =>
          rw [hmoved] at h
          dsimp only at h
          split at h
          · cases h
            rfl
          · cases h

/-- A turn that stops at its read has made it, where the layer can be read
from. -/
theorem readMore_consumed (hroom : session.recvBuffer.length < maxRecvBufferSize)
    {outcome : Option ReadOutcome} {reply : ReceiveReply} {taken : Bool}
    (h : (readMore session error errno outcome).1 = .stopped reply taken) :
    taken = readable session := by
  rw [readMore_eq errno hroom] at h
  split at h
  · exact turnOf_consumed h
  · exact turnOf_consumed h

/-- A layer that can be read from waits for its read. -/
theorem readMore_none (hroom : session.recvBuffer.length < maxRecvBufferSize)
    (hreadable : readable session = true) :
    (readMore session error errno none).1 = .waiting := by
  rw [readMore_eq errno hroom]
  simp only [readable] at hreadable
  cases htls : session.isTls with
  | true =>
      rw [htls, if_pos rfl] at hreadable
      simp [tlsReceive, hreadable, turnOf]
  | false =>
      rw [htls, if_neg Bool.false_ne_true] at hreadable
      simp [socketRecv, hreadable, turnOf]

theorem readMore_moves (hroom : session.recvBuffer.length < maxRecvBufferSize)
    (hreadable : readable session = true) {bytes : Bytes} (hbytes : bytes ≠ []) :
    readMore session error errno (some (.data bytes))
      = (.again error errno, { session with recvBuffer := session.recvBuffer ++ bytes }) := by
  rw [readMore_eq errno hroom]
  simp only [readable] at hreadable
  by_cases htls : session.isTls = true
  · rw [if_pos htls] at hreadable ⊢
    have hlive : session.tls.Live := by simpa [TlsSession.Live] using hreadable
    rw [tlsReceive_data error errno hlive]
    simp only [turnOf, hbytes, false_and, if_false]
  · rw [if_neg htls] at hreadable ⊢
    have hrecv : socketRecv session error errno (some (.data bytes))
        = some ⟨some bytes, decide (bytes = []), error, errno⟩ := by
      simp [socketRecv, hreadable]
    rw [hrecv]
    simp only [turnOf, hbytes, false_and, if_false]

/-- Only a read that moves bytes lets a turn go on, and then the buffer is
longer by them. -/
theorem readMore_again {outcome : Option ReadOutcome} {e : Option String} {n : Errno}
    (hdata : ∀ bytes, outcome = some (.data bytes) → bytes ≠ [])
    (h : (readMore session error errno outcome).1 = .again e n) :
    ∃ bytes, outcome = some (.data bytes) ∧ readable session = true ∧ n = errno
      ∧ (readMore session error errno outcome).2
        = { session with recvBuffer := session.recvBuffer ++ bytes } := by
  by_cases hroom : session.recvBuffer.length < maxRecvBufferSize
  · cases hreadable : readable session with
    | false =>
        obtain ⟨e', hread⟩ := readMore_unreadable error errno hroom hreadable outcome
        rw [hread] at h
        cases h
    | true =>
        by_cases hmoves : ∃ bytes, outcome = some (.data bytes)
        · obtain ⟨bytes, rfl⟩ := hmoves
          rw [readMore_moves error errno hroom hreadable (hdata bytes rfl)] at h ⊢
          cases h
          exact ⟨bytes, rfl, rfl, rfl, rfl⟩
        have hno : ∀ bytes, outcome ≠ some (.data bytes) := fun bytes h => hmoves ⟨bytes, h⟩
        rw [readMore_eq errno hroom] at h
        simp only [readable] at hreadable
        by_cases htls : session.isTls = true
        · rw [if_pos htls] at hreadable h
          have hlive : session.tls.Live := by simpa [TlsSession.Live] using hreadable
          cases outcome with
          | none =>
              rw [tlsReceive_none error errno hlive] at h
              cases h
          | some outcome =>
              cases outcome with
              | data bytes => exact absurd rfl (hno bytes)
              | closed =>
                  rw [tlsReceive_closed error errno hlive] at h
                  simp [turnOf] at h
              | failed failure =>
                  have hfailed : ∃ n text', (tlsReceive session.tls error errno
                      (some (.failed failure))).1 = some ⟨none, false, text', n⟩ := by
                    simp only [tlsReceive, hreadable, Bool.not_true, Bool.false_eq_true, if_false]
                    split
                    · split
                      · exact ⟨_, _, rfl⟩
                      · exact ⟨_, _, rfl⟩
                    · exact ⟨_, _, rfl⟩
                  obtain ⟨n, text', hfailed⟩ := hfailed
                  rw [hfailed] at h
                  simp only [turnOf] at h
                  split at h <;> cases h
        · rw [if_neg htls] at hreadable h
          cases outcome with
          | none => simp [socketRecv, hreadable, turnOf] at h
          | some outcome =>
              cases outcome with
              | data bytes => exact absurd rfl (hno bytes)
              | closed => simp [socketRecv, hreadable, turnOf] at h
              | failed failure =>
                  simp only [socketRecv, hreadable, Bool.not_true, Bool.false_eq_true, if_false,
                    turnOf] at h
                  split at h <;> cases h
  · unfold readMore at h
    rw [if_pos (not_lt.mp hroom)] at h
    cases h

end

/-! ## The whole call -/

/-- The call meets a malformed header while it could still read: in what is
buffered, or once the reads up to some point have arrived. -/
def MeetsBadHeader (session : TransportSessionState) (errno : Errno)
    (outcomes : List ReadOutcome) : Prop :=
  ∃ (chunks : List Bytes) (rest : List ReadOutcome),
    outcomes = chunks.map ReadOutcome.data ++ rest
      ∧ BadHeader (session.recvBuffer ++ chunks.flatten)
      ∧ (session.recvBuffer ++ chunks.flatten).length < maxRecvBufferSize
      ∧ (readable session = true ∨ chunks = [] ∧ socketIsTimeoutError errno = true)

section
variable {session : TransportSessionState} {errno : Errno} {outcomes : List ReadOutcome}

theorem transportReceiveLoop_left_le (error : Option String) :
    (transportReceiveLoop session error errno outcomes).2.2.length ≤ outcomes.length := by
  induction outcomes generalizing session error errno with
  | nil =>
      unfold transportReceiveLoop
      split <;> exact le_rfl
  | cons outcome rest ih =>
      unfold transportReceiveLoop
      split
      next reply consumed session' _ =>
        dsimp only
        split
        · exact Nat.le_succ _
        · exact le_rfl
      next => exact le_rfl
      next e n session' _ => exact (ih e).trans (Nat.le_succ _)

/-- At a malformed header, the calls agree exactly when there is no reading on:
the buffer is full, or the layer cannot be read from and that is no timeout. -/
theorem observed_bad (text : String) (hopen : session.isOpen = true)
    (hbad : BadHeader session.recvBuffer) :
    observed (transportReceiveLoop session none errno outcomes)
        = observed (transportReceiveLoop session (some text) errno outcomes)
      ↔ maxRecvBufferSize ≤ session.recvBuffer.length
        ∨ readable session = false ∧ socketIsTimeoutError errno = false := by
  obtain ⟨hnone, e, hsome⟩ := takeBuffered_bad text hbad
  have hstops : transportReceiveLoop session (some text) errno outcomes
      = (some ⟨none, false, e⟩, transportClose session, outcomes) := by
    cases outcomes with
    | nil => rw [transportReceiveLoop, transportReceiveTurn, hsome]
    | cons outcome rest =>
        rw [transportReceiveLoop, transportReceiveTurn, hsome]
        rfl
  rw [hstops]
  by_cases hroom : session.recvBuffer.length < maxRecvBufferSize
  · rw [or_iff_right (not_le.mpr hroom)]
    cases hreadable : readable session with
    | false =>
        have hloop : ∃ e', transportReceiveLoop session none errno outcomes
            = (some ⟨none, false, e'⟩,
                if socketIsTimeoutError errno then session else transportClose session,
                outcomes) := by
          cases outcomes with
          | nil =>
              obtain ⟨e', hread⟩ := readMore_unreadable none errno hroom hreadable none
              refine ⟨e', ?_⟩
              rw [transportReceiveLoop, transportReceiveTurn, hnone]
              dsimp only
              rw [hread]
          | cons outcome rest =>
              obtain ⟨e', hread⟩ := readMore_unreadable none errno hroom hreadable (some outcome)
              refine ⟨e', ?_⟩
              rw [transportReceiveLoop, transportReceiveTurn, hnone]
              dsimp only
              rw [hread]
              rfl
        obtain ⟨e', hloop⟩ := hloop
        rw [hloop]
        cases htime : socketIsTimeoutError errno with
        | false => simp [observed]
        | true =>
            -- a timeout leaves the session open
            refine iff_of_false (fun h => ?_) (by simp)
            have hstate := congrArg (fun o => o.2.1.isOpen) h
            simp [observed, hopen] at hstate
    | true =>
        refine iff_of_false (fun h => ?_) (by simp)
        have hreply := congrArg (fun o => o.1.isSome) h
        have hleft := congrArg (fun o => o.2.2.length) h
        simp only [observed, Option.isSome_map, Option.isSome_some] at hreply hleft
        cases outcomes with
        | nil =>
            rw [transportReceiveLoop, transportReceiveTurn, hnone] at hreply
            dsimp only at hreply
            have hwaits := readMore_none none errno hroom hreadable
            generalize readMore session none errno none = turn at hwaits hreply
            obtain ⟨turn, session'⟩ := turn
            dsimp only at hwaits
            subst hwaits
            cases hreply
        | cons outcome rest =>
            rw [transportReceiveLoop, transportReceiveTurn, hnone] at hreply hleft
            dsimp only at hreply hleft
            have hconsumed := fun reply taken =>
              @readMore_consumed session none errno hroom (some outcome) reply taken
            generalize readMore session none errno (some outcome) = turn at hconsumed hreply hleft
            obtain ⟨turn, session'⟩ := turn
            cases turn with
            | stopped reply taken =>
                rw [hconsumed reply taken rfl, hreadable] at hleft
                simp at hleft
            | waiting => cases hreply
            | again e' n =>
                have hle := @transportReceiveLoop_left_le session' n rest e'
                simp only [List.length_cons] at hleft
                omega
  · -- a full buffer closes the session at once
    refine iff_of_true ?_ (.inl (not_lt.mp hroom))
    have hfull : ∀ outcome, ∃ e', readMore session none errno outcome
        = (.stopped ⟨none, false, e'⟩ false, transportClose session) := by
      intro outcome
      unfold readMore
      rw [if_pos (not_lt.mp hroom)]
      exact ⟨_, rfl⟩
    cases outcomes with
    | nil =>
        obtain ⟨e', hread⟩ := hfull none
        rw [transportReceiveLoop, transportReceiveTurn, hnone]
        dsimp only
        rw [hread]
        rfl
    | cons outcome rest =>
        obtain ⟨e', hread⟩ := hfull (some outcome)
        rw [transportReceiveLoop, transportReceiveTurn, hnone]
        dsimp only
        rw [hread]
        rfl

/-- What is met in the buffer already. -/
theorem meetsBadHeader_of_bad (hbad : BadHeader session.recvBuffer) :
    MeetsBadHeader session errno outcomes
      ↔ session.recvBuffer.length < maxRecvBufferSize
        ∧ (readable session = true ∨ socketIsTimeoutError errno = true) := by
  constructor
  · rintro ⟨chunks, rest, -, -, hroom, hread⟩
    rw [List.length_append] at hroom
    exact ⟨by omega, hread.imp id fun h => h.2⟩
  · rintro ⟨hroom, hread⟩
    refine ⟨[], outcomes, rfl, ?_, ?_, hread.imp id fun h => ⟨rfl, h⟩⟩
    · simpa using hbad
    · simpa using hroom

/-- A buffer with a whole header that is well formed never becomes a bad one. -/
theorem not_meetsBadHeader (hgood : ¬ BadHeader session.recvBuffer)
    (hstuck : headerSize ≤ session.recvBuffer.length
      ∨ maxRecvBufferSize ≤ session.recvBuffer.length ∨ readable session = false
      ∨ ∀ bytes rest, outcomes ≠ .data bytes :: rest) :
    ¬ MeetsBadHeader session errno outcomes := by
  rintro ⟨chunks, rest, houtcomes, hbad, hroom, hread⟩
  rw [List.length_append] at hroom
  have hchunks : chunks ≠ [] := by
    rintro rfl
    simp only [List.flatten_nil, List.append_nil] at hbad
    exact hgood hbad
  rcases hstuck with hheader | hfull | hunreadable | hno
  · exact hgood ((badHeader_append_iff hheader _).mp hbad)
  · omega
  · rcases hread with hread | ⟨hnil, -⟩
    · rw [hunreadable] at hread
      cases hread
    · exact hchunks hnil
  · cases chunks with
    | nil => exact hchunks rfl
    | cons chunk chunks => exact hno chunk (chunks.map ReadOutcome.data ++ rest) houtcomes

theorem meetsBadHeader_cons (hgood : ¬ BadHeader session.recvBuffer)
    (hreadable : readable session = true) (bytes : Bytes) (rest : List ReadOutcome) :
    MeetsBadHeader session errno (.data bytes :: rest)
      ↔ MeetsBadHeader { session with recvBuffer := session.recvBuffer ++ bytes } errno rest := by
  have hlayer : readable { session with recvBuffer := session.recvBuffer ++ bytes } = true :=
    hreadable
  constructor
  · rintro ⟨chunks, later, houtcomes, hbad, hroom, -⟩
    cases chunks with
    | nil =>
        simp only [List.flatten_nil, List.append_nil] at hbad
        exact absurd hbad hgood
    | cons chunk chunks =>
        simp only [List.map_cons, List.cons_append, List.cons.injEq, ReadOutcome.data.injEq]
          at houtcomes
        obtain ⟨rfl, rfl⟩ := houtcomes
        rw [List.flatten_cons, ← List.append_assoc] at hbad hroom
        exact ⟨chunks, later, rfl, hbad, hroom, .inl hlayer⟩
  · rintro ⟨chunks, later, rfl, hbad, hroom, -⟩
    refine ⟨bytes :: chunks, later, rfl, ?_, ?_, .inl hreadable⟩
    · rw [List.flatten_cons, ← List.append_assoc]
      exact hbad
    · rw [List.flatten_cons, ← List.append_assoc]
      exact hroom

/-- A turn that stops, whatever its read: a call that stops here met no
malformed header. -/
theorem not_meetsBadHeader_of_stopped (hgood : ¬ BadHeader session.recvBuffer)
    (hdata : ∀ bytes, .data bytes ∈ outcomes → bytes ≠ [])
    (hstops : ∀ e n, (readMore session none errno outcomes.head?).1 ≠ .again e n) :
    ¬ MeetsBadHeader session errno outcomes := by
  refine not_meetsBadHeader hgood ?_
  by_cases hroom : session.recvBuffer.length < maxRecvBufferSize
  · refine .inr (.inr ?_)
    cases hreadable : readable session with
    | false => exact .inl rfl
    | true =>
        refine .inr fun bytes rest houtcomes => ?_
        subst houtcomes
        have hmoves := readMore_moves none errno hroom hreadable (hdata bytes List.mem_cons_self)
        rw [List.head?_cons, hmoves] at hstops
        exact hstops _ _ rfl
  · exact .inr (.inl (not_lt.mp hroom))

/-- One turn of the two calls. -/
theorem observed_turn (text : String) (hgood : ¬ BadHeader session.recvBuffer)
    (hdata : ∀ bytes, .data bytes ∈ outcomes → bytes ≠ []) :
    (observed (transportReceiveLoop session none errno outcomes)
          = observed (transportReceiveLoop session (some text) errno outcomes)
        ∧ ¬ MeetsBadHeader session errno outcomes)
      ∨ ∃ bytes rest text', outcomes = .data bytes :: rest ∧ readable session = true
        ∧ transportReceiveLoop session none errno outcomes = transportReceiveLoop
            { session with recvBuffer := session.recvBuffer ++ bytes } none errno rest
        ∧ transportReceiveLoop session (some text) errno outcomes = transportReceiveLoop
            { session with recvBuffer := session.recvBuffer ++ bytes } (some text') errno rest := by
  rcases takeBuffered_agree text hgood with
    ⟨message, e, e', session', hnone, hsome⟩ | ⟨hnone, hsome⟩
  · -- a message is handed out, or refused with its header in order
    have hheader : headerSize ≤ session.recvBuffer.length := by
      by_contra hshort
      rw [takeBuffered, if_pos (not_le.mp hshort)] at hnone
      cases hnone
    refine .inl ⟨?_, not_meetsBadHeader hgood (.inl hheader)⟩
    cases outcomes with
    | nil =>
        simp only [transportReceiveLoop, transportReceiveTurn, hnone, hsome]
        rfl
    | cons outcome rest =>
        simp only [transportReceiveLoop, transportReceiveTurn, hnone, hsome]
        rfl
  · obtain ⟨hturn, hsession⟩ := @readMore_agree session text errno outcomes.head?
    have hagain := @readMore_again session none errno outcomes.head?
    have hquiet := @not_meetsBadHeader_of_stopped session errno outcomes hgood hdata
    cases outcomes with
    | nil =>
        simp only [transportReceiveLoop, transportReceiveTurn, hnone, hsome]
        simp only [List.head?_nil] at hturn hsession hagain hquiet
        generalize readMore session none errno none = left at *
        generalize readMore session (some text) errno none = right at *
        obtain ⟨turn, session'⟩ := left
        obtain ⟨turn', session''⟩ := right
        dsimp only at *
        subst hsession
        cases hturn with
        | stopped message closed e e' consumed => exact .inl ⟨rfl, hquiet fun _ _ h => nomatch h⟩
        | waiting => exact .inl ⟨rfl, hquiet fun _ _ h => nomatch h⟩
        | again text' n =>
            obtain ⟨bytes, hmoved, -⟩ := hagain (fun _ h => nomatch h) rfl
            cases hmoved
    | cons outcome rest =>
        simp only [transportReceiveLoop, transportReceiveTurn, hnone, hsome]
        simp only [List.head?_cons] at hturn hsession hagain hquiet
        generalize readMore session none errno (some outcome) = left at *
        generalize readMore session (some text) errno (some outcome) = right at *
        obtain ⟨turn, session'⟩ := left
        obtain ⟨turn', session''⟩ := right
        dsimp only at *
        subst hsession
        cases hturn with
        | stopped message closed e e' consumed => exact .inl ⟨rfl, hquiet fun _ _ h => nomatch h⟩
        | waiting => exact .inl ⟨rfl, hquiet fun _ _ h => nomatch h⟩
        | again text' n =>
            obtain ⟨bytes, hmoved, hreadable, hn, hsession⟩ := hagain
              (fun bytes h => hdata bytes (by rw [Option.some.inj h]; exact List.mem_cons_self)) rfl
            cases hmoved
            subst hn hsession
            exact .inr ⟨bytes, rest, text', rfl, hreadable, rfl, rfl⟩

theorem observed_loop_iff (text : String) (hopen : session.isOpen = true)
    (hdata : ∀ bytes, .data bytes ∈ outcomes → bytes ≠ []) :
    observed (transportReceiveLoop session none errno outcomes)
        = observed (transportReceiveLoop session (some text) errno outcomes)
      ↔ ¬ MeetsBadHeader session errno outcomes := by
  induction outcomes generalizing session text with
  | nil =>
      by_cases hbad : BadHeader session.recvBuffer
      · rw [observed_bad text hopen hbad, meetsBadHeader_of_bad hbad, not_and_or, not_or, not_lt,
          Bool.not_eq_true, Bool.not_eq_true]
      · rcases observed_turn text hbad hdata with ⟨heq, hnot⟩ | ⟨bytes, rest, text', h, -⟩
        · exact iff_of_true heq hnot
        · cases h
  | cons outcome rest ih =>
      by_cases hbad : BadHeader session.recvBuffer
      · rw [observed_bad text hopen hbad, meetsBadHeader_of_bad hbad, not_and_or, not_or, not_lt,
          Bool.not_eq_true, Bool.not_eq_true]
      · rcases observed_turn text hbad hdata with
          ⟨heq, hnot⟩ | ⟨bytes, rest', text', houtcomes, hreadable, hnone, hsome⟩
        · exact iff_of_true heq hnot
        · cases houtcomes
          rw [hnone, hsome, meetsBadHeader_cons hbad hreadable]
          exact ih text' hopen fun b hb => hdata b (List.mem_cons_of_mem _ hb)

/-- A call with a null error pointer and one with an error string, whatever it
holds, do the same exactly when the session is closed or no malformed header is
met. -/
theorem errorPointer_iff (session : TransportSessionState) (text : String) (errno : Errno)
    (outcomes : List ReadOutcome) (hdata : ∀ bytes, .data bytes ∈ outcomes → bytes ≠ []) :
    observed (transportReceive session none errno outcomes)
        = observed (transportReceive session (some text) errno outcomes)
      ↔ session.isOpen = false ∨ ¬ MeetsBadHeader session errno outcomes := by
  unfold transportReceive
  cases hopen : session.isOpen with
  | false => simp [observed]
  | true =>
      simp only [Bool.not_true, Bool.false_eq_true, if_false, reduceCtorEq, false_or]
      exact observed_loop_iff text hopen hdata

end

theorem errorPointer_iff_bad_version :
    observed (transportReceive connectedPlain none (.other 0) [.data [0x99, 1, 0, 0]])
        = observed (transportReceive connectedPlain (some "") (.other 0) [.data [0x99, 1, 0, 0]])
      ↔ connectedPlain.isOpen = false
        ∨ ¬ MeetsBadHeader connectedPlain (.other 0) [.data [0x99, 1, 0, 0]] :=
  errorPointer_iff connectedPlain "" (.other 0) [.data [0x99, 1, 0, 0]] (by simp)

/-- A header of an unknown version: with an error string the session is closed,
without one the call waits for more. -/
theorem errorPointer_differs :
    ¬ ∀ (session : TransportSessionState) (text : String) (errno : Errno)
      (outcomes : List ReadOutcome), (∀ bytes, .data bytes ∈ outcomes → bytes ≠ []) →
      observed (transportReceive session none errno outcomes)
        = observed (transportReceive session (some text) errno outcomes) := by
  intro h
  have hsame := h connectedPlain "" (.other 0) [.data [0x99, 1, 0, 0]] (by simp)
  have hdiffer : observed (transportReceive connectedPlain none (.other 0) [.data [0x99, 1, 0, 0]])
      ≠ observed (transportReceive connectedPlain (some "") (.other 0)
        [.data [0x99, 1, 0, 0]]) := by
    decide
  exact hdiffer hsame

end Madoka

import Madoka.Transport.Framing

/-!
# End of Stream

A stream that ends, after whole frames and possibly inside a further one, and
what the call says that comes to its end. The session is closed first, and
closing it drops what was buffered.
-/

namespace Madoka

open Octets

def incompleteMessage : String :=
  "Connection closed cleanly by peer with incomplete message in buffer"

/-- The first bytes of a frame, but not all of them; possibly none. -/
def Truncated (bytes : Bytes) : Prop :=
  ∃ message tail, Encodable message ∧ tail ≠ [] ∧ bytes ++ tail = wireOf message

/-- A read that comes to the end of the stream. -/
theorem readMore_closed {session : TransportSessionState} (hready : LayerReady session)
    (hroom : session.recvBuffer.length < maxMessageSize) (error : Option String) (errno : Errno) :
    readMore session error errno (some .closed)
      = (.stopped ⟨none, true, error⟩ true, transportClose session) := by
  obtain ⟨socket, tls, isTls, recvBuffer, isOpen⟩ := session
  have hfull : ¬ recvBuffer.length ≥ maxRecvBufferSize := by
    simp only [maxMessageSize, maxRecvBufferSize] at *
    omega
  unfold readMore
  simp only [if_neg hfull]
  cases isTls with
  | true =>
      have hlive : tls.Live := hready
      simp [tlsReceive_closed error errno hlive, hlive.1, hlive.2, transportClose, tlsDestroy,
        tlsClose]
  | false =>
      have hsocket : socket = true := hready
      simp [socketRecv, hsocket, transportClose]

/-! ## One call -/

/-- Where a call ends whose reads come to the end of the stream: it hands out a
message, times out, or meets the end, and then the session has been closed. -/
inductive EndedCall (session : TransportSessionState) (messages : List Message) (bytes : Bytes)
    (outcomes : List ReadOutcome) (error : Option String) :
    Option ReceiveReply × TransportSessionState × List ReadOutcome → Prop where
  | delivered (m : Message) (rest : List Message) (buffer : Bytes) (e : Option String)
      (left : List ReadOutcome)
      (hms : messages = m :: rest) (hleft : left <:+ outcomes)
      (hstream : buffer ++ received left = wire rest ++ bytes) :
      EndedCall session messages bytes outcomes error
        (some ⟨some m, false, e⟩, { session with recvBuffer := buffer }, left ++ [.closed])
  | timedOut (buffer : Bytes) (e : Option String) (left : List ReadOutcome)
      (hleft : left <:+ outcomes) (htime : timeouts left < timeouts outcomes)
      (hstream : buffer ++ received left = wire messages ++ bytes) :
      EndedCall session messages bytes outcomes error
        (some ⟨none, false, e⟩, { session with recvBuffer := buffer }, left ++ [.closed])
  | ended (hms : messages = []) :
      EndedCall session messages bytes outcomes error
        (some ⟨none, true, error⟩, transportClose session, [])

theorem EndedCall.returns {session : TransportSessionState} {messages : List Message}
    {bytes : Bytes} {outcomes : List ReadOutcome} {error : Option String}
    {result : Option ReceiveReply × TransportSessionState × List ReadOutcome}
    (h : EndedCall session messages bytes outcomes error result) :
    ∃ reply, result.1 = some reply := by
  cases h <;> exact ⟨_, rfl⟩

theorem transportClose_recvBuffer (session : TransportSessionState) (buffer : Bytes) :
    transportClose { session with recvBuffer := buffer } = transportClose session := by
  unfold transportClose
  rfl

/-- What the rest of a call adds to a first read that moved bytes. -/
theorem EndedCall.cons {session : TransportSessionState} {messages : List Message} {bytes : Bytes}
    {outcomes : List ReadOutcome} {error : Option String} {buffer : Bytes} {outcome : ReadOutcome}
    {result : Option ReceiveReply × TransportSessionState × List ReadOutcome}
    (h : EndedCall { session with recvBuffer := buffer } messages bytes outcomes error result) :
    EndedCall session messages bytes (outcome :: outcomes) error result := by
  cases h with
  | delivered m rest buffer' e left hms hleft hstream =>
      exact .delivered m rest buffer' e left hms (hleft.trans (List.suffix_cons _ _)) hstream
  | timedOut buffer' e left hleft htime hstream =>
      refine .timedOut buffer' e left (hleft.trans (List.suffix_cons _ _)) ?_ hstream
      refine lt_of_lt_of_le htime ?_
      simp only [timeouts, List.countP_cons]
      omega
  | ended hms =>
      rw [transportClose_recvBuffer]
      exact .ended hms

/-- A read below the buffer limit that moves bytes leaves `error` alone. -/
theorem readMore_data {session : TransportSessionState} (hready : LayerReady session)
    (hroom : session.recvBuffer.length < maxMessageSize) (error : Option String) (errno : Errno)
    {bytes : Bytes} (hbytes : bytes ≠ []) :
    readMore session error errno (some (.data bytes))
      = (.again error errno, { session with recvBuffer := session.recvBuffer ++ bytes }) := by
  obtain ⟨socket, tls, isTls, recvBuffer, isOpen⟩ := session
  have hfull : ¬ recvBuffer.length ≥ maxRecvBufferSize := by
    simp only [maxMessageSize, maxRecvBufferSize] at *
    omega
  unfold readMore
  simp only [if_neg hfull]
  cases isTls with
  | true =>
      have hlive : tls.Live := hready
      simp [tlsReceive_data error errno hlive]
  | false =>
      have hsocket : socket = true := hready
      simp [socketRecv, hsocket, hbytes]

/-- While the stream is not used up, its first bytes are no whole frame of the
truncated one. -/
theorem takeBuffered_truncated {session : TransportSessionState} {messages : List Message}
    {bytes future : Bytes} (hms : ∀ m ∈ messages, Encodable m) (htruncated : Truncated bytes)
    (hstream : session.recvBuffer ++ future = wire messages ++ bytes) (error : Option String) :
    (∃ m rest buffer, messages = m :: rest ∧ buffer ++ future = wire rest ++ bytes
      ∧ takeBuffered session error
        = (.ok ⟨some m, false, error⟩, { session with recvBuffer := buffer }))
    ∨ (session.recvBuffer.length < maxMessageSize
      ∧ (∀ m rest, messages = m :: rest → session.recvBuffer.length < (wireOf m).length)
      ∧ takeBuffered session error = (.error error, session)) := by
  obtain ⟨last, tail, hlast, htail, hwire⟩ := htruncated
  have hall : ∀ m ∈ messages ++ [last], Encodable m := by
    intro m hm
    rcases List.mem_append.mp hm with hm | hm
    · exact hms m hm
    · rw [List.mem_singleton.mp hm]
      exact hlast
  have hlonger : session.recvBuffer ++ (future ++ tail) = wire (messages ++ [last]) := by
    rw [← List.append_assoc, hstream, List.append_assoc, hwire]
    simp [wire]
  rcases takeBuffered_wire hall hlonger error with
    ⟨m, rest, buffer, hsplit, hbuffer, htake⟩ | ⟨hroom, hshort, htake⟩
  · cases messages with
    | nil =>
        -- the truncated frame does not lie whole in the buffer
        obtain ⟨rfl, -⟩ : last = m ∧ _ := by simpa using hsplit
        have hlength := congrArg List.length hstream
        have hwhole := congrArg List.length hwire
        rw [hbuffer] at hlength
        simp only [List.length_append, wire, List.flatMap_nil, List.length_nil] at hlength hwhole
        have hpos := List.length_pos_of_ne_nil htail
        omega
    | cons first messages =>
        obtain ⟨rfl, -⟩ : first = m ∧ _ := by simpa using hsplit
        refine .inl ⟨first, messages, buffer, rfl, ?_, htake⟩
        rw [hbuffer, wire_cons, List.append_assoc, List.append_assoc] at hstream
        exact List.append_cancel_left hstream
  · refine .inr ⟨hroom, fun m rest heq => hshort m (rest ++ [last]) ?_, htake⟩
    rw [heq, List.cons_append]

theorem transportReceiveLoop_ended {outcomes : List ReadOutcome}
    {session : TransportSessionState} {messages : List Message} {bytes : Bytes}
    (hready : LayerReady session) (hms : ∀ m ∈ messages, Encodable m)
    (htruncated : Truncated bytes) (hos : ∀ o ∈ outcomes, Delivers session.isTls o)
    (hstream : session.recvBuffer ++ received outcomes = wire messages ++ bytes)
    (error : Option String) (errno : Errno) :
    EndedCall session messages bytes outcomes error
      (transportReceiveLoop session error errno (outcomes ++ [.closed])) := by
  induction outcomes generalizing session with
  | nil =>
      rw [List.nil_append, transportReceiveLoop, transportReceiveTurn]
      rcases takeBuffered_truncated hms htruncated hstream error with
        ⟨m, rest, buffer, hsplit, hrest, htake⟩ | ⟨hroom, hshort, htake⟩
      · rw [htake]
        exact .delivered m rest buffer error [] hsplit List.suffix_rfl hrest
      · rw [htake]
        dsimp only
        rw [readMore_closed hready hroom]
        refine .ended ?_
        -- a message that is still to come would have arrived by now
        cases messages with
        | nil => rfl
        | cons m rest =>
            have hlength := congrArg List.length hstream
            have hlt := hshort m rest rfl
            simp only [wire_cons, List.length_append, received, List.flatMap_nil,
              List.length_nil] at hlength
            omega
  | cons outcome outcomes ih =>
      rw [List.cons_append, transportReceiveLoop, transportReceiveTurn]
      rcases takeBuffered_truncated hms htruncated hstream error with
        ⟨m, rest, buffer, hsplit, hrest, htake⟩ | ⟨hroom, hshort, htake⟩
      · rw [htake]
        exact .delivered m rest buffer error (outcome :: outcomes) hsplit List.suffix_rfl hrest
      · rw [htake]
        dsimp only
        have ho := hos outcome List.mem_cons_self
        cases outcome with
        | data chunk =>
            rw [readMore_data hready hroom error errno ho.1]
            have hready' : LayerReady
                { session with recvBuffer := session.recvBuffer ++ chunk } := hready
            refine EndedCall.cons (ih hready' (fun o h => hos o (List.mem_cons_of_mem _ h)) ?_)
            rw [← hstream, received_cons, ← List.append_assoc]
            rfl
        | closed => exact ho.elim
        | failed failure =>
            obtain ⟨hno, -⟩ | ⟨-, hnobytes, e, hread⟩ :=
              (readMore_delivers hready hroom error errno).2 _ ho
            · cases hno
            · rw [hread]
              refine .timedOut session.recvBuffer e outcomes (List.suffix_cons _ _) ?_ ?_
              · rw [timeouts, timeouts, List.countP_cons_of_pos rfl]
                exact Nat.lt_succ_self _
              · rw [← hstream, received_cons, hnobytes]
                rfl

/-! ## Any number of calls -/

/-- A session on which calls have been made that did not come to the end: what
it holds and what is still to be read are the rest of the stream. -/
structure Awaiting (session : TransportSessionState) (messages : List Message) (bytes : Bytes)
    (outcomes : List ReadOutcome) : Prop where
  isOpen : session.isOpen = true
  ready : LayerReady session
  encodable : ∀ m ∈ messages, Encodable m
  delivers : ∀ o ∈ outcomes, Delivers session.isTls o
  stream : session.recvBuffer ++ received outcomes = wire messages ++ bytes

section
variable {session : TransportSessionState} {messages : List Message} {bytes : Bytes}
  {outcomes : List ReadOutcome}

theorem Awaiting.call (h : Awaiting session messages bytes outcomes) (htruncated : Truncated bytes)
    (error : Option String) (errno : Errno) :
    EndedCall session messages bytes outcomes error
      (transportReceive session error errno (outcomes ++ [.closed])) := by
  unfold transportReceive
  rw [h.isOpen]
  exact transportReceiveLoop_ended h.ready h.encodable htruncated h.delivers h.stream error errno

/-- After a call the session is still awaiting the end, or has come to it. -/
theorem Awaiting.step (h : Awaiting session messages bytes outcomes)
    {error : Option String}
    {result : Option ReceiveReply × TransportSessionState × List ReadOutcome}
    (hcall : EndedCall session messages bytes outcomes error result) :
    (result.2.2 = [] ∧ result.2.1 = transportClose session)
      ∨ ∃ reply messages' outcomes', result.1 = some reply ∧ result.2.2 = outcomes' ++ [.closed]
        ∧ Awaiting result.2.1 messages' bytes outcomes'
        ∧ messages'.length + timeouts outcomes' < messages.length + timeouts outcomes := by
  cases hcall with
  | delivered m rest buffer e left hms hleft hstream =>
      refine .inr ⟨_, rest, left, rfl, rfl, ⟨h.isOpen, h.ready, ?_, ?_, hstream⟩, ?_⟩
      · exact fun m' hm' => h.encodable m' (hms ▸ List.mem_cons_of_mem _ hm')
      · exact fun o ho => h.delivers o (hleft.subset ho)
      · have htime : timeouts left ≤ timeouts outcomes := hleft.sublist.countP_le
        rw [hms, List.length_cons]
        omega
  | timedOut buffer e left hleft htime hstream =>
      refine .inr ⟨_, messages, left, rfl, rfl, ⟨h.isOpen, h.ready, h.encodable, ?_, hstream⟩, ?_⟩
      · exact fun o ho => h.delivers o (hleft.subset ho)
      · omega
  | ended hms => exact .inl ⟨rfl, rfl⟩

/-- A closed session stays as it is. -/
theorem receiveCalls_closed (hclosed : session.isOpen = false)
    (calls : List (Option String × Errno)) :
    (receiveCalls session [] calls).2 = (session, []) := by
  induction calls with
  | nil => rfl
  | cons call calls ih =>
      obtain ⟨error, errno⟩ := call
      simp only [receiveCalls, transportReceive, hclosed]
      exact ih

theorem receiveCalls_cons {error : Option String} {errno : Errno} {reply : ReceiveReply}
    (hreply : (transportReceive session error errno outcomes).1 = some reply)
    (calls : List (Option String × Errno)) :
    (receiveCalls session outcomes ((error, errno) :: calls)).2
      = (receiveCalls (transportReceive session error errno outcomes).2.1
          (transportReceive session error errno outcomes).2.2 calls).2 := by
  rw [receiveCalls]
  generalize transportReceive session error errno outcomes = result at hreply ⊢
  obtain ⟨reply', session', left⟩ := result
  dsimp only at hreply
  subst hreply
  rfl

/-- However many calls: the session awaits the end, or nothing is left. -/
theorem Awaiting.run (h : Awaiting session messages bytes outcomes) (htruncated : Truncated bytes)
    (calls : List (Option String × Errno)) :
    (receiveCalls session (outcomes ++ [.closed]) calls).2.2 = []
      ∨ ∃ messages' outcomes',
        (receiveCalls session (outcomes ++ [.closed]) calls).2.2 = outcomes' ++ [.closed]
        ∧ Awaiting (receiveCalls session (outcomes ++ [.closed]) calls).2.1 messages' bytes
            outcomes' := by
  induction calls generalizing session messages outcomes with
  | nil => exact .inr ⟨messages, outcomes, rfl, h⟩
  | cons call calls ih =>
      obtain ⟨error, errno⟩ := call
      have hcall := h.call htruncated error errno
      obtain ⟨reply, hreply⟩ := hcall.returns
      rw [receiveCalls_cons hreply]
      rcases h.step hcall with ⟨hleft, hclosed⟩ | ⟨-, messages', outcomes', -, hleft, hnext, -⟩
      · rw [hleft, receiveCalls_closed (by rw [hclosed]; exact transportClose_isOpen session)]
        exact .inl rfl
      · rw [hleft]
        exact ih hnext

/-- Some number of calls stops just before the one that comes to the end. -/
theorem Awaiting.exists_last (h : Awaiting session messages bytes outcomes)
    (htruncated : Truncated bytes) (error : Option String) (errno : Errno) :
    ∃ calls, (receiveCalls session (outcomes ++ [.closed]) calls).2.2 ≠ []
      ∧ (transportReceive (receiveCalls session (outcomes ++ [.closed]) calls).2.1 error errno
          (receiveCalls session (outcomes ++ [.closed]) calls).2.2).2.2 = [] := by
  generalize hmeasure : messages.length + timeouts outcomes = measure
  induction measure using Nat.strong_induction_on generalizing session messages outcomes with
  | _ measure ih =>
      have hcall := h.call htruncated error errno
      rcases h.step hcall with ⟨hleft, -⟩ | ⟨reply, messages', outcomes', hreply, hleft, hnext, hlt⟩
      · exact ⟨[], by simp [receiveCalls], hleft⟩
      · obtain ⟨calls, hrun⟩ := ih _ (hmeasure ▸ hlt) hnext rfl
        refine ⟨(error, errno) :: calls, ?_⟩
        rw [receiveCalls_cons hreply, hleft]
        exact hrun

end

/-! ## What is reported -/

/-- A call, with an empty error string, that reads the end of the stream after
some others did not. -/
structure MeetsEnd (session : TransportSessionState) (outcomes : List ReadOutcome)
    (calls : List (Option String × Errno)) (errno : Errno) (reply : Option ReceiveReply) :
    Prop where
  before : (receiveCalls session (outcomes ++ [.closed]) calls).2.2 ≠ []
  after : (transportReceive (receiveCalls session (outcomes ++ [.closed]) calls).2.1 (some "")
    errno (receiveCalls session (outcomes ++ [.closed]) calls).2.2).2.2 = []
  returns : (transportReceive (receiveCalls session (outcomes ++ [.closed]) calls).2.1 (some "")
    errno (receiveCalls session (outcomes ++ [.closed]) calls).2.2).1 = reply

/-- The call that meets the end returns false with `connection_closed` set, and
its error tells of an incomplete message exactly when there is one. -/
def EndReported (session : TransportSessionState) (outcomes : List ReadOutcome) (bytes : Bytes) :
    Prop :=
  ∀ calls errno reply, MeetsEnd session outcomes calls errno reply →
    ∃ error, reply = some ⟨none, true, error⟩ ∧ (error = some incompleteMessage ↔ bytes ≠ [])

/-- The end of a stream of whole frames and a truncated one. The call that
meets it returns false and tells that the connection is closed, but its error
stays empty: it is right exactly when nothing was truncated. -/
theorem endReported_iff {session : TransportSessionState} {messages : List Message}
    {bytes : Bytes} {outcomes : List ReadOutcome} (hopen : session.isOpen = true)
    (hready : LayerReady session) (hempty : session.recvBuffer = [])
    (hms : ∀ m ∈ messages, Encodable m) (htruncated : Truncated bytes)
    (hos : ∀ o ∈ outcomes, Delivers session.isTls o)
    (hstream : received outcomes = wire messages ++ bytes) :
    (∀ calls errno reply, MeetsEnd session outcomes calls errno reply →
        reply = some ⟨none, true, some ""⟩)
      ∧ (EndReported session outcomes bytes ↔ bytes = []) := by
  have hawaiting : Awaiting session messages bytes outcomes :=
    ⟨hopen, hready, hms, hos, by rw [hempty, List.nil_append, hstream]⟩
  have hreply : ∀ calls errno reply, MeetsEnd session outcomes calls errno reply →
      reply = some ⟨none, true, some ""⟩ := by
    intro calls errno reply hmeets
    rcases hawaiting.run htruncated calls with hleft | ⟨messages', outcomes', hleft, hnext⟩
    · exact absurd hleft hmeets.before
    · have hafter := hmeets.after
      have hreturns := hmeets.returns
      rw [hleft] at hafter hreturns
      have hcall := hnext.call htruncated (some "") errno
      generalize transportReceive _ _ errno (outcomes' ++ [.closed]) = result
        at hcall hafter hreturns
      cases hcall with
      | delivered => simp at hafter
      | timedOut => simp at hafter
      | ended => exact hreturns.symm
  have hempty_ne : (some "" : Option String) ≠ some incompleteMessage := by decide
  refine ⟨hreply, ?_, ?_⟩
  · intro hreported
    by_contra hbytes
    obtain ⟨calls, hbefore, hafter⟩ := hawaiting.exists_last htruncated (some "") (.other 0)
    obtain ⟨error, herror, hiff⟩ := hreported calls _ _ ⟨hbefore, hafter, rfl⟩
    rw [hreply calls _ _ ⟨hbefore, hafter, rfl⟩] at herror
    cases herror
    exact hempty_ne (hiff.mpr hbytes)
  · intro hbytes calls errno reply hmeets
    refine ⟨some "", hreply calls errno reply hmeets, ?_⟩
    exact iff_of_false hempty_ne (not_not.mpr hbytes)

/-- A frame of one byte of payload, cut after its header. -/
theorem endReported_iff_cut_header :
    EndReported connectedPlain [.data [1, 2, 0, 1]] [1, 2, 0, 1] ↔ ([1, 2, 0, 1] : Bytes) = [] := by
  have hready : LayerReady connectedPlain := by simp [LayerReady, connectedPlain]
  have htruncated : Truncated [1, 2, 0, 1] :=
    ⟨⟨1, .keepAlive, [7]⟩, [7], ⟨_, rfl⟩, by simp, by decide⟩
  have hos : ∀ o ∈ [ReadOutcome.data [1, 2, 0, 1]], Delivers connectedPlain.isTls o := by
    simp [Delivers, recvChunkSize]
  exact (@endReported_iff connectedPlain [] _ _ rfl hready rfl (by simp) htruncated hos
    (by decide)).2

/-- The connection closes after the header of a frame, and the error is empty. -/
theorem end_not_reported :
    ¬ ∀ (session : TransportSessionState) (messages : List Message) (bytes : Bytes)
      (outcomes : List ReadOutcome), session.isOpen = true → LayerReady session →
      session.recvBuffer = [] → (∀ m ∈ messages, Encodable m) → Truncated bytes →
      (∀ o ∈ outcomes, Delivers session.isTls o) →
      received outcomes = wire messages ++ bytes → EndReported session outcomes bytes := by
  intro h
  have hready : LayerReady connectedPlain := by simp [LayerReady, connectedPlain]
  have htruncated : Truncated [1, 2, 0, 1] :=
    ⟨⟨1, .keepAlive, [7]⟩, [7], ⟨_, rfl⟩, by simp, by decide⟩
  have hos : ∀ o ∈ [ReadOutcome.data [1, 2, 0, 1]], Delivers connectedPlain.isTls o := by
    simp [Delivers, recvChunkSize]
  have hreported := h connectedPlain [] [1, 2, 0, 1] [.data [1, 2, 0, 1]] rfl hready rfl (by simp)
    htruncated hos (by decide)
  obtain ⟨error, hreply, hiff⟩ := hreported [] (.other 0) (some ⟨none, true, some ""⟩)
    ⟨by simp [receiveCalls], by decide, by decide⟩
  cases hreply
  exact absurd (hiff.mpr (by simp)) (by decide)

end Madoka

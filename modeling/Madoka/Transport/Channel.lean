import Madoka.Transport.EndOfStream

/-!
# Channel

The two ends of one connection: what any calls of `transport_send` put on the
stream, and what `transport_receive` makes of it at the other end.
-/

namespace Madoka

open Octets

/-! ## The sending end -/

/-- The bytes that the write loop of `transport_send` or `tls_send` moves. A
write moves no more than it is given. -/
def written (encoded : Bytes) (totalSent : Nat) : List WriteOutcome → Bytes
  | [] => []
  | outcome :: rest =>
      if totalSent ≥ encoded.length then []
      else
        match outcome with
        | .moved count =>
            (encoded.drop totalSent).take count ++ written encoded (totalSent + count) rest
        | .failed _ _ => []

/-- What one call puts on the stream. -/
def sendBytes (session : TransportSessionState) (message : Message)
    (outcomes : List WriteOutcome) : Bytes :=
  if !session.isOpen then []
  else
    match messageEncode message with
    | .error _ => []
    | .ok encoded =>
        let writable :=
          if session.isTls then session.tls.nativeSsl && session.tls.established else session.socket
        if writable then written encoded 0 outcomes else []

/-- One call of `transport_send`, with what its writes come to. -/
structure SendCall where
  message : Message
  error : Option String
  outcomes : List WriteOutcome

/-- Repeated calls, one at a time: the messages for which they return true,
and the bytes they put on the stream. They end early when a call does not
return. -/
def sendCalls (session : TransportSessionState) : List SendCall → List Message × Bytes
  | [] => ([], [])
  | call :: calls =>
      let bytes := sendBytes session call.message call.outcomes
      match transportSend session call.message call.error call.outcomes with
      | (none, _) => ([], bytes)
      | (some reply, session) =>
          let (accepted, stream) := sendCalls session calls
          (if reply.sent then call.message :: accepted else accepted, bytes ++ stream)

/-- The bytes stop short of the end of the encoding. -/
def Short (encoded : Bytes) (totalSent : Nat) (bytes : Bytes) : Prop :=
  ∃ tail, tail ≠ [] ∧ bytes ++ tail = encoded.drop totalSent

section
variable {encoded : Bytes} {totalSent : Nat}

theorem Short.nil (h : ¬ totalSent ≥ encoded.length) : Short encoded totalSent [] :=
  ⟨encoded.drop totalSent, by simpa using h, rfl⟩

theorem take_drop_add (count : Nat) (bytes : Bytes) :
    (encoded.drop totalSent).take count ++ bytes = encoded.drop totalSent
      ↔ bytes = encoded.drop (totalSent + count) := by
  rw [← List.drop_drop]
  constructor
  · intro h
    exact List.append_cancel_left (h.trans (List.take_append_drop count _).symm)
  · rintro rfl
    exact List.take_append_drop count _

theorem Short.moved {count : Nat} {bytes : Bytes} (h : Short encoded (totalSent + count) bytes) :
    Short encoded totalSent ((encoded.drop totalSent).take count ++ bytes) := by
  obtain ⟨tail, htail, hdrop⟩ := h
  refine ⟨tail, htail, ?_⟩
  rw [List.append_assoc, take_drop_add]
  exact hdrop

theorem Short.truncated {message : Message} {bytes : Bytes}
    (hencode : messageEncode message = .ok encoded) (h : Short encoded 0 bytes) :
    Truncated bytes := by
  obtain ⟨tail, htail, hdrop⟩ := h
  exact ⟨message, tail, ⟨encoded, hencode⟩, htail, by rw [hdrop, wireOf_encode hencode]; rfl⟩

theorem written_done (h : totalSent ≥ encoded.length) (outcomes : List WriteOutcome) :
    written encoded totalSent outcomes = [] := by
  cases outcomes with
  | nil => rfl
  | cons outcome rest =>
      unfold written
      rw [if_pos h]

/-- Where the plain loop ends: everything is out, or it stopped short, and a
failure has closed the session. -/
theorem socketSendLoop_written (session : TransportSessionState) (error : Option String)
    (outcomes : List WriteOutcome) :
    (∃ e, socketSendLoop session error encoded.length totalSent outcomes = (some ⟨true, e⟩, session)
        ∧ written encoded totalSent outcomes = encoded.drop totalSent)
      ∨ Short encoded totalSent (written encoded totalSent outcomes)
        ∧ ((socketSendLoop session error encoded.length totalSent outcomes).1 = none
          ∨ ∃ e, socketSendLoop session error encoded.length totalSent outcomes
            = (some ⟨false, e⟩, transportClose session)) := by
  induction outcomes generalizing totalSent with
  | nil =>
      rw [socketSendLoop, written]
      by_cases hdone : totalSent ≥ encoded.length
      · rw [if_pos hdone]
        exact .inl ⟨error, rfl, (List.drop_eq_nil_of_le hdone).symm⟩
      · rw [if_neg hdone]
        exact .inr ⟨.nil hdone, .inl rfl⟩
  | cons outcome rest ih =>
      unfold socketSendLoop
      by_cases hdone : totalSent ≥ encoded.length
      · rw [if_pos hdone, written_done hdone]
        exact .inl ⟨error, rfl, (List.drop_eq_nil_of_le hdone).symm⟩
      · unfold written
        rw [if_neg hdone, if_neg hdone]
        cases outcome with
        | failed code text => exact .inr ⟨.nil hdone, .inr ⟨_, rfl⟩⟩
        | moved count =>
            dsimp only
            rcases @ih (totalSent + count) with ⟨e, hsent, hall⟩ | ⟨hshort, hend⟩
            · exact .inl ⟨e, hsent, (take_drop_add count _).mpr hall⟩
            · exact .inr ⟨hshort.moved, hend⟩

/-- The TLS loop ends the same way. -/
theorem tlsSendLoop_written (session : TlsSession) (error : Option String)
    (outcomes : List WriteOutcome) :
    (∃ count, (tlsSendLoop session error encoded.length totalSent outcomes).1 = some (.ok count)
        ∧ written encoded totalSent outcomes = encoded.drop totalSent)
      ∨ Short encoded totalSent (written encoded totalSent outcomes)
        ∧ ((tlsSendLoop session error encoded.length totalSent outcomes).1 = none
          ∨ ∃ e, (tlsSendLoop session error encoded.length totalSent outcomes).1
            = some (.error e)) := by
  induction outcomes generalizing totalSent with
  | nil =>
      rw [tlsSendLoop, written]
      by_cases hdone : totalSent ≥ encoded.length
      · rw [if_pos hdone]
        exact .inl ⟨totalSent, rfl, (List.drop_eq_nil_of_le hdone).symm⟩
      · rw [if_neg hdone]
        exact .inr ⟨.nil hdone, .inl rfl⟩
  | cons outcome rest ih =>
      unfold tlsSendLoop
      by_cases hdone : totalSent ≥ encoded.length
      · rw [if_pos hdone, written_done hdone]
        exact .inl ⟨totalSent, rfl, (List.drop_eq_nil_of_le hdone).symm⟩
      · unfold written
        rw [if_neg hdone, if_neg hdone]
        cases outcome with
        | failed code text => exact .inr ⟨.nil hdone, .inr ⟨_, rfl⟩⟩
        | moved count =>
            dsimp only
            rcases @ih (totalSent + count) with ⟨sent, hsent, hall⟩ | ⟨hshort, hend⟩
            · exact .inl ⟨sent, hsent, (take_drop_add count _).mpr hall⟩
            · exact .inr ⟨hshort.moved, hend⟩

end

/-- What one call comes to: the whole frame is on the stream, nothing is, or
the stream ends inside the frame. -/
inductive SendEnd (message : Message) (bytes : Bytes) :
    Option SendReply × TransportSessionState → Prop where
  | accepted (e : Option String) (session : TransportSessionState) (hencodable : Encodable message)
      (hbytes : bytes = wireOf message) : SendEnd message bytes (some ⟨true, e⟩, session)
  | refused (e : Option String) (session : TransportSessionState) (hbytes : bytes = []) :
      SendEnd message bytes (some ⟨false, e⟩, session)
  | broken (e : Option String) (session : TransportSessionState) (hclosed : session.isOpen = false)
      (hbytes : Truncated bytes) : SendEnd message bytes (some ⟨false, e⟩, session)
  | blocked (session : TransportSessionState) (hbytes : Truncated bytes) :
      SendEnd message bytes (none, session)

theorem transportSend_end (session : TransportSessionState) (message : Message)
    (error : Option String) (outcomes : List WriteOutcome) :
    SendEnd message (sendBytes session message outcomes)
      (transportSend session message error outcomes) := by
  unfold sendBytes transportSend
  cases hopen : session.isOpen with
  | false => exact .refused _ _ rfl
  | true =>
      cases hencode : messageEncode message with
      | error text => exact .refused _ _ rfl
      | ok encoded =>
          have hwire : encoded.drop 0 = wireOf message := (wireOf_encode hencode).symm
          simp only [Bool.not_true, Bool.false_eq_true, if_false]
          cases htls : session.isTls with
          | false =>
              simp only [Bool.false_eq_true, if_false]
              cases hsocket : session.socket with
              | false => exact .refused _ _ rfl
              | true =>
                  simp only [Bool.not_true, Bool.false_eq_true, if_false, if_true]
                  rcases @socketSendLoop_written encoded 0 session error outcomes with
                    ⟨e, hsent, hall⟩ | ⟨hshort, hnone | ⟨e, hfailed⟩⟩
                  · rw [hsent]
                    exact .accepted e session ⟨encoded, hencode⟩ (hall.trans hwire)
                  · generalize socketSendLoop _ _ _ _ _ = result at hnone
                    obtain ⟨reply, after⟩ := result
                    cases hnone
                    exact .blocked after (hshort.truncated hencode)
                  · rw [hfailed]
                    exact .broken e _ (transportClose_isOpen session) (hshort.truncated hencode)
          | true =>
              simp only [if_true]
              unfold tlsSend
              cases hlive : session.tls.nativeSsl && session.tls.established with
              | false => exact .refused _ _ rfl
              | true =>
                  simp only [Bool.not_true, Bool.false_eq_true, if_false, if_true]
                  have hend := @tlsSendLoop_written encoded 0 session.tls error outcomes
                  generalize tlsSendLoop _ _ _ _ _ = result at hend
                  obtain ⟨reply, tls⟩ := result
                  dsimp only at hend
                  rcases hend with ⟨count, rfl, hall⟩ | ⟨hshort, rfl | ⟨e, rfl⟩⟩
                  · exact .accepted error _ ⟨encoded, hencode⟩ (hall.trans hwire)
                  · exact .blocked _ (hshort.truncated hencode)
                  · exact .broken e _ (transportClose_isOpen _) (hshort.truncated hencode)

theorem truncated_nil : Truncated [] := by
  refine ⟨⟨1, .keepAlive, []⟩, wireOf ⟨1, .keepAlive, []⟩, ⟨_, rfl⟩, ?_, rfl⟩
  decide

theorem sendCalls_closed {session : TransportSessionState} (hclosed : session.isOpen = false)
    (calls : List SendCall) : sendCalls session calls = ([], []) := by
  induction calls with
  | nil => rfl
  | cons call calls ih => simp [sendCalls, sendBytes, transportSend, hclosed, ih]

/-- The stream holds the frames of the messages that were accepted and nothing
else that is whole. -/
theorem sendCalls_stream (session : TransportSessionState) (calls : List SendCall) :
    (∀ m ∈ (sendCalls session calls).1, Encodable m)
      ∧ ∃ bytes, Truncated bytes
        ∧ (sendCalls session calls).2 = wire (sendCalls session calls).1 ++ bytes := by
  induction calls generalizing session with
  | nil => exact ⟨by simp [sendCalls], [], truncated_nil, rfl⟩
  | cons call calls ih =>
      have hend := transportSend_end session call.message call.error call.outcomes
      rw [sendCalls]
      generalize transportSend _ _ _ _ = result at hend
      generalize sendBytes _ _ _ = sent at hend
      cases hend with
      | accepted e after hencodable hbytes =>
          obtain ⟨hall, bytes, htruncated, hstream⟩ := ih after
          refine ⟨?_, bytes, htruncated, ?_⟩
          · intro m hm
            rcases List.mem_cons.mp hm with rfl | hm
            · exact hencodable
            · exact hall m hm
          · dsimp only
            rw [if_pos rfl, hstream, hbytes, wire_cons, List.append_assoc]
      | refused e after hbytes =>
          obtain ⟨hall, bytes, htruncated, hstream⟩ := ih after
          refine ⟨hall, bytes, htruncated, ?_⟩
          dsimp only
          rw [hbytes, List.nil_append]
          exact hstream
      | broken e after hclosed hbytes =>
          dsimp only
          rw [sendCalls_closed hclosed]
          exact ⟨by simp, sent, hbytes, by simp [wire]⟩
      | blocked after hbytes => exact ⟨by simp, sent, hbytes, by simp [wire]⟩

/-! ## The receiving end -/

/-- What a layer that finished a read made of its outcome: the bytes of it, or
a failure. A layer that could not be read at all did not use the outcome. -/
def ReadResult.Of (result : ReadResult) (outcome : Option ReadOutcome) (readable : Bool) : Prop :=
  (∃ o, outcome = some o ∧ result.bytesRead = some o.bytes)
    ∨ result.bytesRead = none ∧ (readable = true → ∀ o, outcome = some o → o.bytes = [])

theorem tlsReceive_of {tls after : TlsSession} {error : Option String} {errno : Errno}
    {outcome : Option ReadOutcome} {result : ReadResult}
    (h : tlsReceive tls error errno outcome = (some result, after)) :
    result.Of outcome (tls.nativeSsl && tls.established) := by
  unfold tlsReceive at h
  split at h
  · next hdown =>
      cases h
      refine .inr ⟨rfl, fun hlive => ?_⟩
      rw [hlive] at hdown
      cases hdown
  · split at h
    · cases h
    · cases h
      exact .inl ⟨_, rfl, rfl⟩
    · cases h
      exact .inl ⟨_, rfl, rfl⟩
    · refine .inr ⟨?_, fun _ o ho => by cases ho; rfl⟩
      split at h
      · split at h <;> cases h <;> rfl
      · cases h
        rfl

theorem socketRecv_of {session : TransportSessionState} {error : Option String} {errno : Errno}
    {outcome : Option ReadOutcome} {result : ReadResult}
    (h : socketRecv session error errno outcome = some result) :
    result.Of outcome session.socket := by
  unfold socketRecv at h
  split at h
  · next hdown =>
      cases h
      exact .inr ⟨rfl, fun hlive => absurd hlive (by simpa using hdown)⟩
  · split at h
    · cases h
    · cases h
      exact .inl ⟨_, rfl, rfl⟩
    · cases h
      exact .inl ⟨_, rfl, rfl⟩
    · cases h
      exact .inr ⟨rfl, fun _ o ho => by cases ho; rfl⟩

/-- Whatever a read comes to, the buffer grows by its bytes, or the call waits,
or it stops without a message; then the session is closed, or nothing was
read. -/
theorem readMore_cases (session : TransportSessionState) (error : Option String) (errno : Errno)
    (outcome : Option ReadOutcome) :
    (∃ o e n after, outcome = some o ∧ readMore session error errno outcome = (.again e n, after)
        ∧ after.recvBuffer = session.recvBuffer ++ o.bytes)
      ∨ (∃ after, readMore session error errno outcome = (.waiting, after)
        ∧ after.recvBuffer = session.recvBuffer)
      ∨ ∃ reply consumed after, readMore session error errno outcome = (.stopped reply consumed, after)
        ∧ reply.message = none
        ∧ (after.isOpen = false ∨ after.recvBuffer = session.recvBuffer
          ∧ (consumed = true → ∀ o, outcome = some o → o.bytes = [])) := by
  unfold readMore
  split
  · exact .inr (.inr ⟨_, _, _, rfl, rfl, .inl (transportClose_isOpen _)⟩)
  · -- both layers hand the session on but for their own part of it
    have hlayer : ∀ readable layer after,
        (if session.isTls then session.tls.nativeSsl && session.tls.established
          else session.socket) = readable →
        (if session.isTls then
            ((tlsReceive session.tls error errno outcome).1,
              { session with tls := (tlsReceive session.tls error errno outcome).2 })
          else (socketRecv session error errno outcome, session)) = (layer, after) →
        after.recvBuffer = session.recvBuffer
          ∧ ∀ result, layer = some result → result.Of outcome readable := by
      intro readable layer after hreadable hread
      cases htls : session.isTls with
      | true =>
          rw [htls, if_pos rfl] at hread hreadable
          cases hread
          exact ⟨rfl, fun result hresult => hreadable ▸ tlsReceive_of (Prod.ext hresult rfl)⟩
      | false =>
          rw [htls, if_neg Bool.false_ne_true] at hread hreadable
          cases hread
          exact ⟨rfl, fun result hresult => hreadable ▸ socketRecv_of hresult⟩
    dsimp only
    generalize (if session.isTls then session.tls.nativeSsl && session.tls.established
      else session.socket) = readable at hlayer ⊢
    generalize (if session.isTls then _ else _ : Option ReadResult × TransportSessionState) = read
      at hlayer ⊢
    obtain ⟨layer, after⟩ := read
    obtain ⟨hbuffer, hof⟩ := hlayer readable layer after rfl rfl
    dsimp only
    cases layer with
    | none => exact .inr (.inl ⟨after, rfl, hbuffer⟩)
    | some result =>
        rcases hof result rfl with ⟨o, ho, hbytes⟩ | ⟨hfailed, hno⟩
        · dsimp only
          rw [hbytes]
          dsimp only
          split
          · exact .inr (.inr ⟨_, _, _, rfl, rfl, .inl (transportClose_isOpen _)⟩)
          · exact .inl ⟨o, _, _, _, ho, rfl, by rw [hbuffer]⟩
        · dsimp only
          rw [hfailed]
          dsimp only
          split
          · exact .inr (.inr ⟨_, _, _, rfl, rfl, .inr ⟨hbuffer, hno⟩⟩)
          · exact .inr (.inr ⟨_, _, _, rfl, rfl, .inl (transportClose_isOpen _)⟩)

/-- What a call hands out and what it leaves of the stream. -/
inductive HandsOut (messages : List Message) (bytes tail : Bytes) :
    Option ReceiveReply × TransportSessionState × List ReadOutcome → Prop where
  | message (m : Message) (rest : List Message) (e : Option String)
      (session : TransportSessionState) (left : List ReadOutcome) (hms : messages = m :: rest)
      (hstream : session.recvBuffer ++ (received left ++ tail) = wire rest ++ bytes) :
      HandsOut messages bytes tail (some ⟨some m, false, e⟩, session, left)
  | nothing (reply : Option ReceiveReply) (session : TransportSessionState)
      (left : List ReadOutcome) (hnone : reply.bind ReceiveReply.message = none)
      (hstream : session.isOpen = false
        ∨ session.recvBuffer ++ (received left ++ tail) = wire messages ++ bytes) :
      HandsOut messages bytes tail (reply, session, left)

section
variable {messages : List Message} {bytes tail : Bytes}

theorem transportReceiveLoop_handsOut {outcomes : List ReadOutcome}
    {session : TransportSessionState} (hms : ∀ m ∈ messages, Encodable m)
    (htruncated : Truncated bytes)
    (hstream : session.recvBuffer ++ (received outcomes ++ tail) = wire messages ++ bytes)
    (error : Option String) (errno : Errno) :
    HandsOut messages bytes tail (transportReceiveLoop session error errno outcomes) := by
  induction outcomes generalizing session error errno with
  | nil =>
      rw [transportReceiveLoop, transportReceiveTurn]
      rcases takeBuffered_truncated hms htruncated hstream error with
        ⟨m, rest, buffer, hsplit, hrest, htake⟩ | ⟨-, -, htake⟩
      · rw [htake]
        exact .message m rest error _ [] hsplit hrest
      · rw [htake]
        dsimp only
        rcases readMore_cases session error errno none with
          ⟨o, e, n, after, hnone, -⟩ | ⟨after, hread, hbuffer⟩
            | ⟨reply, consumed, after, hread, hnone, hafter⟩
        · cases hnone
        · rw [hread]
          exact .nothing none after [] rfl (.inr (hbuffer ▸ hstream))
        · rw [hread]
          refine .nothing (some reply) after [] hnone (hafter.imp_right fun hkept => ?_)
          rw [hkept.1]
          exact hstream
  | cons outcome outcomes ih =>
      rw [transportReceiveLoop, transportReceiveTurn]
      rcases takeBuffered_truncated hms htruncated hstream error with
        ⟨m, rest, buffer, hsplit, hrest, htake⟩ | ⟨-, -, htake⟩
      · rw [htake]
        exact .message m rest error _ (outcome :: outcomes) hsplit hrest
      · rw [htake]
        dsimp only
        rcases readMore_cases session error errno (some outcome) with
          ⟨o, e, n, after, ho, hread, hbuffer⟩ | ⟨after, hread, hbuffer⟩
            | ⟨reply, consumed, after, hread, hnone, hafter⟩
        · cases ho
          rw [hread]
          refine ih ?_ e n
          rw [hbuffer, ← hstream, received_cons]
          simp
        · rw [hread]
          exact .nothing none after _ rfl (.inr (hbuffer ▸ hstream))
        · rw [hread]
          refine .nothing (some reply) after _ hnone (hafter.imp_right fun hkept => ?_)
          obtain ⟨hbuffer, hno⟩ := hkept
          rw [← hstream, hbuffer]
          cases consumed with
          | true => rw [if_pos rfl, received_cons, hno rfl _ rfl, List.nil_append]
          | false => rw [if_neg Bool.false_ne_true]

/-- On a closed session no call hands anything out. -/
theorem receiveCalls_shut {session : TransportSessionState} (hclosed : session.isOpen = false)
    (outcomes : List ReadOutcome) (calls : List (Option String × Errno)) :
    (receiveCalls session outcomes calls).1.filterMap ReceiveReply.message = []
      ∧ (receiveCalls session outcomes calls).1.countP ReceiveReply.connectionClosed = 0
      ∧ (receiveCalls session outcomes calls).2.1 = session := by
  induction calls with
  | nil => exact ⟨rfl, rfl, rfl⟩
  | cons call calls ih =>
      obtain ⟨error, errno⟩ := call
      simpa [receiveCalls, transportReceive, hclosed] using ih

/-- Whatever the reads come to, the messages are handed out in order, none
twice and none left out. -/
theorem receiveCalls_handsOut (calls : List (Option String × Errno)) {outcomes : List ReadOutcome}
    {session : TransportSessionState} (hms : ∀ m ∈ messages, Encodable m)
    (htruncated : Truncated bytes)
    (hstream : session.isOpen = false
      ∨ session.recvBuffer ++ (received outcomes ++ tail) = wire messages ++ bytes) :
    (receiveCalls session outcomes calls).1.filterMap ReceiveReply.message <+: messages := by
  induction calls generalizing session outcomes messages with
  | nil => exact List.nil_prefix
  | cons call calls ih =>
      obtain ⟨error, errno⟩ := call
      cases hopen : session.isOpen with
      | false =>
          rw [(receiveCalls_shut hopen outcomes _).1]
          exact List.nil_prefix
      | true =>
          have hcall := transportReceiveLoop_handsOut hms htruncated
            (hstream.resolve_left (by simp [hopen])) error errno
          rw [receiveCalls, transportReceive, hopen]
          simp only [Bool.not_true, Bool.false_eq_true, if_false]
          generalize transportReceiveLoop session error errno outcomes = result at hcall
          cases hcall with
          | message m rest e after left hsplit hrest =>
              subst hsplit
              exact List.cons_prefix_cons.mpr
                ⟨rfl, ih (fun m' hm' => hms m' (List.mem_cons_of_mem _ hm')) (.inr hrest)⟩
          | nothing reply after left hnone hrest =>
              cases reply with
              | none => exact List.nil_prefix
              | some reply =>
                  dsimp only
                  have hmessage : reply.message = none := hnone
                  rw [List.filterMap_cons_none hmessage]
                  exact ih hms hrest

/-- Once the whole stream can be read, a call for every message and timeout,
and one more for the end, hand out every message. -/
theorem Awaiting.drains {session : TransportSessionState} {outcomes : List ReadOutcome}
    (h : Awaiting session messages bytes outcomes) (htruncated : Truncated bytes)
    (calls : List (Option String × Errno))
    (henough : messages.length + timeouts outcomes < calls.length) :
    (receiveCalls session (outcomes ++ [.closed]) calls).1.filterMap ReceiveReply.message = messages
      ∧ (receiveCalls session (outcomes ++ [.closed]) calls).1.countP
          ReceiveReply.connectionClosed = 1
      ∧ (receiveCalls session (outcomes ++ [.closed]) calls).2.1.isOpen = false := by
  induction calls generalizing session messages outcomes with
  | nil => simp at henough
  | cons call calls ih =>
      obtain ⟨error, errno⟩ := call
      have hcall := h.call htruncated error errno
      rw [List.length_cons] at henough
      rw [receiveCalls]
      generalize transportReceive session error errno (outcomes ++ [.closed]) = result
        at hcall
      cases hcall with
      | delivered m rest buffer e left hms hleft hstream =>
          have hnext : Awaiting { session with recvBuffer := buffer } rest bytes left :=
            ⟨h.isOpen, h.ready, fun m' hm' => h.encodable m' (hms ▸ List.mem_cons_of_mem _ hm'),
              fun o ho => h.delivers o (hleft.subset ho), hstream⟩
          have hfewer : timeouts left ≤ timeouts outcomes := hleft.sublist.countP_le
          rw [hms, List.length_cons] at henough
          obtain ⟨hall, hone, hclosed⟩ := ih hnext (by omega)
          dsimp only
          rw [hms, List.countP_cons_of_neg Bool.false_ne_true]
          exact ⟨congrArg (m :: ·) hall, hone, hclosed⟩
      | timedOut buffer e left hleft htime hstream =>
          have hnext : Awaiting { session with recvBuffer := buffer } messages bytes left :=
            ⟨h.isOpen, h.ready, h.encodable, fun o ho => h.delivers o (hleft.subset ho), hstream⟩
          obtain ⟨hall, hone, hclosed⟩ := ih hnext (by omega)
          dsimp only
          rw [List.filterMap_cons_none rfl, List.countP_cons_of_neg Bool.false_ne_true]
          exact ⟨hall, hone, hclosed⟩
      | ended hms =>
          obtain ⟨hnone, hzero, hsame⟩ :=
            receiveCalls_shut (transportClose_isOpen session) [] calls
          dsimp only
          rw [hms, List.filterMap_cons_none rfl, hnone, List.countP_cons_of_pos rfl, hzero, hsame]
          exact ⟨rfl, rfl, transportClose_isOpen session⟩

end

/-! ## Both ends -/

/-- The reads bring the whole stream and then its end, with nothing but
timeouts in between. -/
structure BringsAll (receiver : TransportSessionState) (outcomes reads : List ReadOutcome)
    (stream : Bytes) : Prop where
  isOpen : receiver.isOpen = true
  ready : LayerReady receiver
  outcomes_eq : outcomes = reads ++ [.closed]
  delivers : ∀ o ∈ reads, Delivers receiver.isTls o
  whole : received reads = stream

/-- Whatever calls the sender makes, however its writes go and wherever they
fail, and however the reads of the receiver cut what was written, fail or time
out: the receiver hands out the messages whose sending returned true, in order
and each once, up to some point; and all of them when the reads bring the
stream to its end, which is then reported once. -/
theorem channel_faithful {receiver : TransportSessionState} {outcomes : List ReadOutcome}
    (sender : TransportSessionState) (sends : List SendCall) (hempty : receiver.recvBuffer = [])
    (hread : received outcomes <+: (sendCalls sender sends).2)
    (calls : List (Option String × Errno)) :
    (receiveCalls receiver outcomes calls).1.filterMap ReceiveReply.message
        <+: (sendCalls sender sends).1
      ∧ ∀ reads, BringsAll receiver outcomes reads (sendCalls sender sends).2 →
        (sendCalls sender sends).1.length + timeouts reads < calls.length →
        (receiveCalls receiver outcomes calls).1.filterMap ReceiveReply.message
            = (sendCalls sender sends).1
          ∧ (receiveCalls receiver outcomes calls).1.countP ReceiveReply.connectionClosed = 1
          ∧ (receiveCalls receiver outcomes calls).2.1.isOpen = false := by
  obtain ⟨hms, bytes, htruncated, hstream⟩ := sendCalls_stream sender sends
  constructor
  · obtain ⟨tail, htail⟩ := hread
    refine @receiveCalls_handsOut _ _ tail calls _ _ hms htruncated (.inr ?_)
    rw [hempty, List.nil_append, htail, hstream]
  · intro reads hall henough
    have hawaiting : Awaiting receiver (sendCalls sender sends).1 bytes reads :=
      ⟨hall.isOpen, hall.ready, hms, hall.delivers,
        by rw [hempty, List.nil_append, hall.whole, hstream]⟩
    rw [hall.outcomes_eq]
    exact hawaiting.drains htruncated calls henough

/-- One message goes out in two writes, a second one breaks off after two
bytes; the reads cut the frame elsewhere. -/
def brokenSends : List SendCall :=
  [⟨⟨1, .keepAlive, [7]⟩, none, [.moved 2, .moved 3]⟩,
    ⟨⟨1, .keepAlive, [9]⟩, none, [.moved 2, .failed 0 none]⟩]

def cutReads : List ReadOutcome :=
  [.data [1], .failed ⟨.syscall, .eagain, "", .eagain⟩, .data [2, 0, 1], .data [7, 1, 2]]

theorem channel_faithful_broken :
    (receiveCalls connectedPlain (cutReads ++ [.closed])
        [(none, .other 0), (none, .other 0), (none, .other 0)]).1.filterMap ReceiveReply.message
      = [⟨1, .keepAlive, [7]⟩] := by
  have hready : LayerReady connectedPlain := by simp [LayerReady, connectedPlain]
  have hwhole : received cutReads = (sendCalls connectedPlain brokenSends).2 := by decide
  have haccepted : (sendCalls connectedPlain brokenSends).1 = [⟨1, .keepAlive, [7]⟩] := by
    decide
  have hdelivers : ∀ o ∈ cutReads, Delivers connectedPlain.isTls o := by
    simp [cutReads, Delivers, recvChunkSize, socketIsTimeoutError]
  have hprefix : received (cutReads ++ [.closed]) <+: (sendCalls connectedPlain brokenSends).2 := by
    decide
  have hboth := @channel_faithful connectedPlain (cutReads ++ [.closed]) connectedPlain brokenSends
    rfl hprefix [(none, .other 0), (none, .other 0), (none, .other 0)]
  obtain ⟨hall, -⟩ := hboth.2 cutReads ⟨rfl, hready, rfl, hdelivers, hwhole⟩
    (by rw [haccepted]; decide)
  rw [hall, haccepted]

end Madoka

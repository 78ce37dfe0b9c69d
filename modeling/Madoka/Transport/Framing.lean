import Madoka.Transport.Session

/-!
# Framing

Messages sent back to back on a byte stream and handed out again by
`transport_receive`, however the socket cuts the stream into reads.
-/

namespace Madoka

open Octets

/-! ## The stream -/

/-- `message_encode` accepts the message. -/
def Encodable (message : Message) : Prop :=
  ∃ bytes, messageEncode message = .ok bytes

/-- What the sender puts on the stream for one message. -/
def wireOf (message : Message) : Bytes :=
  match messageEncode message with
  | .ok bytes => bytes
  | .error _ => []

def wire (messages : List Message) : Bytes :=
  messages.flatMap wireOf

/-- A read that moves bytes, at most as many as any call asks for, or one
that times out in a way its layer survives: over TLS `SSL_ERROR_SYSCALL`. A
timeout that comes as `SSL_ERROR_WANT_READ` is left out, since it shuts the
layer down. -/
def Delivers (isTls : Bool) : ReadOutcome → Prop
  | .data bytes => bytes ≠ [] ∧ bytes.length ≤ recvChunkSize
  | .closed => False
  | .failed failure =>
      socketIsTimeoutError failure.errno = true ∧ (isTls = true → failure.code = .syscall)

def ReadOutcome.bytes : ReadOutcome → Bytes
  | .data bytes => bytes
  | _ => []

def received (outcomes : List ReadOutcome) : Bytes :=
  outcomes.flatMap ReadOutcome.bytes

def ReadOutcome.isFailed : ReadOutcome → Bool
  | .failed _ => true
  | _ => false

def timeouts (outcomes : List ReadOutcome) : Nat :=
  outcomes.countP ReadOutcome.isFailed

/-- Repeated calls, each with the `error` and `errno` it finds. They end
early when a call does not return. -/
def receiveCalls (session : TransportSessionState) (outcomes : List ReadOutcome) :
    List (Option String × Errno) →
      List ReceiveReply × TransportSessionState × List ReadOutcome
  | [] => ([], session, outcomes)
  | (error, errno) :: calls =>
      match transportReceive session error errno outcomes with
      | (none, session, outcomes) => ([], session, outcomes)
      | (some reply, session, outcomes) =>
          let (replies, result) := receiveCalls session outcomes calls
          (reply :: replies, result)

/-- The session's read layer works. -/
def LayerReady (session : TransportSessionState) : Prop :=
  if session.isTls then session.tls.Live else session.socket = true

theorem wireOf_encode {message : Message} {bytes : Bytes} (h : messageEncode message = .ok bytes) :
    wireOf message = bytes := by
  simp [wireOf, h]

/-! ## One turn -/

/-- A buffer that starts the stream holds its first message whole, which is
handed out, or not, and then it is shorter than any message may be. -/
theorem takeBuffered_wire {session : TransportSessionState} {messages : List Message}
    {future : Bytes} (hms : ∀ m ∈ messages, Encodable m)
    (hstream : session.recvBuffer ++ future = wire messages) (error : Option String) :
    (∃ m rest buffer, messages = m :: rest ∧ session.recvBuffer = wireOf m ++ buffer
      ∧ takeBuffered session error
        = (.ok ⟨some m, false, error⟩, { session with recvBuffer := buffer }))
    ∨ (session.recvBuffer.length < maxMessageSize
      ∧ (∀ m rest, messages = m :: rest → session.recvBuffer.length < (wireOf m).length)
      ∧ takeBuffered session error = (.error error, session)) := by
  cases messages with
  | nil =>
      have hempty : session.recvBuffer = [] := (List.append_eq_nil_iff.mp hstream).1
      right
      simp [takeBuffered, hempty, headerSize, maxMessageSize]
  | cons m rest =>
      obtain ⟨bytes, hbytes⟩ := hms m (List.mem_cons_self ..)
      obtain ⟨hlength, hheader, hmax⟩ := messageEncode_length hbytes
      have hwire : wireOf m = bytes := wireOf_encode hbytes
      have hstream' : session.recvBuffer ++ future = bytes ++ wire rest := by
        rw [hstream, wire, List.flatMap_cons, hwire]
        rfl
      by_cases hshort : session.recvBuffer.length < bytes.length
      · right
        refine ⟨by omega, ?_, ?_⟩
        · intro m' rest' heq
          cases heq
          rw [hwire]
          exact hshort
        · unfold takeBuffered
          by_cases hhead : session.recvBuffer.length < headerSize
          · rw [if_pos hhead]
          · rw [if_neg hhead, messagePeekSize_of_prefix hbytes hstream' (not_lt.mp hhead)]
            dsimp only
            rw [if_neg (by omega), if_neg (by omega)]
      · left
        obtain ⟨buffer, hbuffer⟩ : bytes <+: session.recvBuffer :=
          List.prefix_of_prefix_length_le ⟨wire rest, rfl⟩ ⟨future, hstream'⟩ (by omega)
        refine ⟨m, rest, buffer, rfl, by rw [hwire, hbuffer], ?_⟩
        unfold takeBuffered
        rw [if_neg (by omega), messagePeekSize_of_prefix hbytes hstream' (by omega)]
        dsimp only
        rw [if_neg (by omega), if_pos (by omega), ← hbuffer, List.take_left' rfl,
          messageDecode_encode hbytes]
        simp

/-- A read below the buffer limit waits, appends what it moved, or times out
and leaves the session alone. -/
theorem readMore_delivers {session : TransportSessionState} (hready : LayerReady session)
    (hroom : session.recvBuffer.length < maxMessageSize) (error : Option String) (errno : Errno) :
    readMore session error errno none = (.waiting, session)
    ∧ ∀ outcome, Delivers session.isTls outcome →
        (outcome.isFailed = false ∧ ∃ e n, readMore session error errno (some outcome)
          = (.again e n, { session with recvBuffer := session.recvBuffer ++ outcome.bytes }))
        ∨ (outcome.isFailed = true ∧ outcome.bytes = []
          ∧ ∃ e, readMore session error errno (some outcome)
            = (.stopped ⟨none, false, e⟩ true, session)) := by
  obtain ⟨socket, tls, isTls, recvBuffer, isOpen⟩ := session
  have hfull : ¬ recvBuffer.length ≥ maxRecvBufferSize := by
    simp only [maxMessageSize, maxRecvBufferSize] at *
    omega
  unfold readMore
  simp only [if_neg hfull]
  cases isTls with
  | true =>
      have hlive : tls.Live := hready
      have hlayer : (tls.nativeSsl && tls.established) = true := by
        rw [hlive.1, hlive.2]; rfl
      simp only [if_true]
      refine ⟨by rw [tlsReceive_none error errno hlive], fun outcome ho => ?_⟩
      cases outcome with
      | data bytes =>
          rw [tlsReceive_data error errno hlive]
          exact .inl ⟨rfl, error, errno, by simp [ReadOutcome.bytes]⟩
      | closed => exact ho.elim
      | failed failure =>
          rw [tlsReceive_timeout error errno hlive (ho.2 rfl) ho.1]
          refine .inr ⟨rfl, rfl, error.map fun _ => "", ?_⟩
          simp [ho.1, hlayer, setError, Option.map_map, Function.comp_def]
  | false =>
      have hsocket : socket = true := hready
      subst hsocket
      refine ⟨rfl, fun outcome ho => ?_⟩
      cases outcome with
      | data bytes =>
          refine .inl ⟨rfl, error, errno, ?_⟩
          simp [socketRecv, ho.1, ReadOutcome.bytes]
      | closed => exact ho.elim
      | failed failure =>
          refine .inr ⟨rfl, rfl, (setError error failure.text).map fun _ => "", ?_⟩
          simp [socketRecv, ho.1]

/-! ## One call -/

/-- Where a call on a working session over a stream of messages ends: it
hands out the next message, times out, or has used up every read and still
waits for the rest of a message. -/
inductive CallEnd (session : TransportSessionState) (messages : List Message)
    (consumed : List ReadOutcome) (buffer : Bytes) : Option ReceiveReply → Prop where
  | delivered (m : Message) (rest : List Message) (e : Option String)
      (hms : messages = m :: rest) (hnone : timeouts consumed = 0)
      (hbuffer : session.recvBuffer ++ received consumed = wireOf m ++ buffer) :
      CallEnd session messages consumed buffer (some ⟨some m, false, e⟩)
  | timedOut (e : Option String) (hone : timeouts consumed = 1)
      (hbuffer : session.recvBuffer ++ received consumed = buffer) :
      CallEnd session messages consumed buffer (some ⟨none, false, e⟩)
  | waiting (hnone : timeouts consumed = 0)
      (hbuffer : session.recvBuffer ++ received consumed = buffer)
      (hshort : ∀ m rest, messages = m :: rest → buffer.length < (wireOf m).length) :
      CallEnd session messages consumed buffer none

/-- The most a session ever buffers: less than a message before a read, and
one chunk more after it. -/
def BufferBounded (buffer : Bytes) : Prop :=
  buffer.length < maxMessageSize + recvChunkSize

theorem received_cons (outcome : ReadOutcome) (rest : List ReadOutcome) :
    received (outcome :: rest) = outcome.bytes ++ received rest := by
  simp [received]

theorem received_append (xs ys : List ReadOutcome) :
    received (xs ++ ys) = received xs ++ received ys := by
  simp [received]

/-- What a call keeps, whatever it returns: the reads it made, the buffer as
the only part of the session that moved, and the reason it stopped. -/
theorem transportReceiveLoop_wire {outcomes : List ReadOutcome}
    {session : TransportSessionState} {messages : List Message} {tail : Bytes}
    (hready : LayerReady session) (hms : ∀ m ∈ messages, Encodable m)
    (hos : ∀ o ∈ outcomes, Delivers session.isTls o) (hbound : BufferBounded session.recvBuffer)
    (hstream : session.recvBuffer ++ (received outcomes ++ tail) = wire messages)
    (error : Option String) (errno : Errno) :
    ∃ consumed buffer, outcomes
        = consumed ++ (transportReceiveLoop session error errno outcomes).2.2
      ∧ (transportReceiveLoop session error errno outcomes).2.1
        = { session with recvBuffer := buffer }
      ∧ BufferBounded buffer
      ∧ CallEnd session messages consumed buffer
        (transportReceiveLoop session error errno outcomes).1
      ∧ ((transportReceiveLoop session error errno outcomes).1 = none →
        (transportReceiveLoop session error errno outcomes).2.2 = []) := by
  induction outcomes generalizing session error errno with
  | nil =>
      unfold transportReceiveLoop transportReceiveTurn
      rcases takeBuffered_wire hms hstream error with
        ⟨m, rest, buffer, rfl, hsplit, htake⟩ | ⟨hroom, hshort, htake⟩
      · rw [htake]
        refine ⟨[], buffer, rfl, rfl, ?_, .delivered m rest error rfl rfl ?_, fun _ => rfl⟩
        · simp only [BufferBounded, hsplit, List.length_append] at hbound ⊢
          omega
        · simpa [received] using hsplit
      · rw [htake]
        dsimp only
        rw [(readMore_delivers hready hroom error errno).1]
        exact ⟨[], session.recvBuffer, rfl, rfl, hbound,
          .waiting rfl (by simp [received]) hshort, fun _ => rfl⟩
  | cons outcome rest ih =>
      unfold transportReceiveLoop transportReceiveTurn
      rcases takeBuffered_wire hms hstream error with
        ⟨m, later, buffer, rfl, hsplit, htake⟩ | ⟨hroom, hshort, htake⟩
      · rw [htake]
        refine ⟨[], buffer, by simp, rfl, ?_, .delivered m later error rfl rfl ?_,
          fun h => nomatch h⟩
        · simp only [BufferBounded, hsplit, List.length_append] at hbound ⊢
          omega
        · simpa [received] using hsplit
      · rw [htake]
        dsimp only
        have ho := hos outcome (List.mem_cons_self ..)
        rcases (readMore_delivers hready hroom error errno).2 outcome ho with
          ⟨hdata, e, n, hread⟩ | ⟨hfailed, hnobytes, e, hread⟩
        · -- more bytes: the rest of the call is a call on the longer buffer
          rw [hread]
          dsimp only
          have hsize : outcome.bytes.length ≤ recvChunkSize := by
            cases outcome with
            | data bytes => exact ho.2
            | closed => exact ho.elim
            | failed f => cases hdata
          have hbound' : BufferBounded (session.recvBuffer ++ outcome.bytes) := by
            simp only [BufferBounded, List.length_append]
            omega
          have hready' : LayerReady
              { session with recvBuffer := session.recvBuffer ++ outcome.bytes } := hready
          obtain ⟨consumed, buffer, hconsumed, hsession, hb, hend, hwait⟩ := ih hready'
            (fun o h => hos o (List.mem_cons_of_mem _ h)) hbound'
            (by rw [← hstream, received_cons]; simp) e n
          refine ⟨outcome :: consumed, buffer, by rw [List.cons_append, ← hconsumed], hsession, hb,
            ?_, hwait⟩
          have htimes : timeouts (outcome :: consumed) = timeouts consumed := by
            simp [timeouts, hdata]
          have hbytes : session.recvBuffer ++ received (outcome :: consumed)
              = session.recvBuffer ++ outcome.bytes ++ received consumed := by
            rw [received_cons, List.append_assoc]
          generalize (transportReceiveLoop { session with
            recvBuffer := session.recvBuffer ++ outcome.bytes } e n rest).1 = reply at hend ⊢
          cases hend with
          | delivered m later e hms hnone hbuf =>
              exact .delivered m later e hms (htimes.trans hnone) (hbytes.trans hbuf)
          | timedOut e hone hbuf => exact .timedOut e (htimes.trans hone) (hbytes.trans hbuf)
          | waiting hnone hbuf hshort =>
              exact .waiting (htimes.trans hnone) (hbytes.trans hbuf) hshort
        · rw [hread]
          refine ⟨[outcome], session.recvBuffer, by simp, rfl, hbound, .timedOut e ?_ ?_,
            fun h => nomatch h⟩
          · simp [timeouts, hfailed]
          · simp [received, hnobytes]

/-! ## Any number of calls -/

/-- What repeated calls come to, from a session that held the bytes `held`:
the messages split into those handed out and those to come, the reads into
those made and those left. -/
structure Framed (held : Bytes) (messages : List Message) (outcomes : List ReadOutcome)
    (calls : Nat) (result : List ReceiveReply × TransportSessionState × List ReadOutcome)
    (delivered pending : List Message) (consumed : List ReadOutcome) : Prop where
  messages_eq : messages = delivered ++ pending
  outcomes_eq : outcomes = consumed ++ result.2.2
  /-- In order, and each once. -/
  handed_out : result.1.filterMap ReceiveReply.message = delivered
  none_closed : ∀ reply ∈ result.1, reply.connectionClosed = false
  still_open : result.2.1.isOpen = true
  /-- Inside a call too: reads cut short there leave the call waiting. -/
  buffer_le : result.2.1.recvBuffer.length ≤ maxRecvBufferSize
  /-- The buffer is what was received and not handed out yet. -/
  buffer_eq : held ++ received consumed = wire delivered ++ result.2.1.recvBuffer
  /-- Once all is received, a call for every message and timeout is enough. -/
  complete : held ++ received outcomes = wire messages →
    messages.length + timeouts outcomes ≤ calls → pending = []

theorem BufferBounded.le {buffer : Bytes} (h : BufferBounded buffer) :
    buffer.length ≤ maxRecvBufferSize := by
  simp only [BufferBounded, maxMessageSize, recvChunkSize, maxRecvBufferSize] at *
  omega

theorem wire_cons (m : Message) (rest : List Message) : wire (m :: rest) = wireOf m ++ wire rest := by
  simp [wire]

theorem timeouts_append (xs ys : List ReadOutcome) :
    timeouts (xs ++ ys) = timeouts xs + timeouts ys := by
  simp [timeouts]

theorem receiveCalls_wire (calls : List (Option String × Errno))
    (session : TransportSessionState) {messages : List Message} {outcomes : List ReadOutcome}
    {tail : Bytes} (hopen : session.isOpen = true) (hready : LayerReady session)
    (hbound : BufferBounded session.recvBuffer) (hms : ∀ m ∈ messages, Encodable m)
    (hos : ∀ o ∈ outcomes, Delivers session.isTls o)
    (hstream : session.recvBuffer ++ (received outcomes ++ tail) = wire messages) :
    ∃ delivered pending consumed, Framed session.recvBuffer messages outcomes calls.length
      (receiveCalls session outcomes calls) delivered pending consumed := by
  induction calls generalizing session messages outcomes with
  | nil =>
      refine ⟨[], messages, [], rfl, rfl, rfl, by simp [receiveCalls], hopen, hbound.le, ?_, ?_⟩
      · simp [receiveCalls, received, wire]
      · intro _ hlen
        simp only [List.length_nil, Nat.le_zero, Nat.add_eq_zero_iff] at hlen
        exact List.eq_nil_of_length_eq_zero hlen.1
  | cons call calls ih =>
      obtain ⟨error, errno⟩ := call
      obtain ⟨consumed, buffer, hconsumed, hsession, hbound', hend, hwait⟩ :=
        transportReceiveLoop_wire hready hms hos hbound hstream error errno
      unfold receiveCalls transportReceive
      simp only [hopen, Bool.not_true, Bool.false_eq_true, if_false]
      generalize transportReceiveLoop session error errno outcomes = result
        at hconsumed hsession hend hwait ⊢
      obtain ⟨reply, session', rest⟩ := result
      dsimp only at hconsumed hsession hend hwait
      subst hsession hconsumed
      have hos' : ∀ o ∈ rest, Delivers session.isTls o :=
        fun o h => hos o (List.mem_append_right _ h)
      rw [received_append, List.append_assoc] at hstream
      cases hend with
      | delivered m later e hmessages hnone hbuf =>
          -- the message leaves both sides of the stream
          subst hmessages
          have hcancel : ∀ bytes, session.recvBuffer ++ (received consumed ++ bytes)
              = wire (m :: later) → buffer ++ bytes = wire later := by
            intro bytes h
            rw [← List.append_assoc, hbuf, wire_cons, List.append_assoc] at h
            exact List.append_cancel_left h
          obtain ⟨delivered, pending, consumed', hrun⟩ := ih
            { session with recvBuffer := buffer } hopen hready hbound'
            (fun m' h => hms m' (List.mem_cons_of_mem _ h)) hos' (hcancel _ hstream)
          refine ⟨m :: delivered, pending, consumed ++ consumed', ?_, ?_, ?_, ?_, hrun.still_open,
            hrun.buffer_le, ?_, ?_⟩
          · rw [hrun.messages_eq, List.cons_append]
          · rw [List.append_assoc, ← hrun.outcomes_eq]
          · rw [List.filterMap_cons, hrun.handed_out]
          · intro reply hreply
            rcases List.mem_cons.mp hreply with rfl | hreply
            · rfl
            · exact hrun.none_closed reply hreply
          · calc session.recvBuffer ++ received (consumed ++ consumed')
                = session.recvBuffer ++ received consumed ++ received consumed' := by
                    rw [received_append, List.append_assoc]
              _ = wireOf m ++ (buffer ++ received consumed') := by rw [hbuf, List.append_assoc]
              _ = _ := by rw [hrun.buffer_eq, wire_cons, List.append_assoc]
          · intro hall hlen
            rw [received_append] at hall
            rw [timeouts_append] at hlen
            simp only [List.length_cons] at hlen
            exact hrun.complete (hcancel _ hall) (by omega)
      | timedOut e hone hbuf =>
          subst hbuf
          obtain ⟨delivered, pending, consumed', hrun⟩ := ih
            { session with recvBuffer := session.recvBuffer ++ received consumed }
            hopen hready hbound' hms hos' (by rw [List.append_assoc]; exact hstream)
          refine ⟨delivered, pending, consumed ++ consumed', hrun.messages_eq, ?_, ?_, ?_,
            hrun.still_open, hrun.buffer_le, ?_, ?_⟩
          · rw [List.append_assoc, ← hrun.outcomes_eq]
          · rw [List.filterMap_cons, hrun.handed_out]
          · intro reply hreply
            rcases List.mem_cons.mp hreply with rfl | hreply
            · rfl
            · exact hrun.none_closed reply hreply
          · rw [received_append, ← List.append_assoc]
            exact hrun.buffer_eq
          · intro hall hlen
            rw [received_append, ← List.append_assoc] at hall
            rw [timeouts_append] at hlen
            simp only [List.length_cons] at hlen
            exact hrun.complete hall (by omega)
      | waiting hnone hbuf hshort =>
          have hrest := hwait rfl
          subst hrest
          refine ⟨[], messages, consumed, rfl, rfl, rfl, by simp, hopen, hbound'.le, hbuf, ?_⟩
          -- with the whole stream received, an incomplete message is none
          intro hall _
          cases messages with
          | nil => rfl
          | cons m later =>
              have hlt := hshort m later rfl
              rw [List.append_nil, hbuf, wire_cons] at hall
              rw [hall, List.length_append] at hlt
              omega

/-- The encodings of any messages, cut into reads in any way and with
timeouts anywhere between them, on an open session with nothing buffered. -/
theorem receive_framing {session : TransportSessionState} {messages : List Message}
    {outcomes : List ReadOutcome} (hopen : session.isOpen = true) (hready : LayerReady session)
    (hempty : session.recvBuffer = []) (hms : ∀ m ∈ messages, Encodable m)
    (hos : ∀ o ∈ outcomes, Delivers session.isTls o)
    (hstream : received outcomes <+: wire messages) (calls : List (Option String × Errno)) :
    ∃ delivered pending consumed, Framed [] messages outcomes calls.length
      (receiveCalls session outcomes calls) delivered pending consumed := by
  obtain ⟨tail, htail⟩ := hstream
  have hbound : BufferBounded session.recvBuffer := by
    rw [hempty, BufferBounded]
    decide
  have hrun := receiveCalls_wire calls session hopen hready hbound hms hos
    (by rw [hempty, htail]; rfl)
  rwa [hempty] at hrun

/-- A plain session as `transport_connect` leaves it. -/
def connectedPlain : TransportSessionState where
  socket := true
  tls := { nativeSsl := false, established := false, socket := false }
  isTls := false
  recvBuffer := []
  isOpen := true

/-- One message cut inside its header, with a timeout before the rest. -/
theorem receive_framing_split_header :
    ∃ delivered pending consumed, Framed [] [⟨1, .keepAlive, [7]⟩]
      [.data [1, 2], .failed ⟨.syscall, .eagain, "", .eagain⟩, .data [0, 1, 7]] 2
      (receiveCalls connectedPlain
        [.data [1, 2], .failed ⟨.syscall, .eagain, "", .eagain⟩, .data [0, 1, 7]]
        [(none, .other 0), (none, .eagain)]) delivered pending consumed := by
  have hready : LayerReady connectedPlain := by simp [LayerReady, connectedPlain]
  refine receive_framing rfl hready rfl ?_ ?_ ?_ [(none, .other 0), (none, .eagain)]
  · simp only [List.mem_singleton, forall_eq]
    exact ⟨_, rfl⟩
  · simp [Delivers, recvChunkSize, socketIsTimeoutError]
  · exact ⟨[], by decide⟩

end Madoka

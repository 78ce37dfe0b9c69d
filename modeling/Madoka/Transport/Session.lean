import Madoka.Crypto.Tls
import Madoka.Protocol.Codec

/-!
# Session

Sending and receiving messages on an open transport session
(`transport/session.cpp`), over a plain socket or a TLS layer. A call that
reads is given the outcomes of its reads one after another; when they run
out, the call is still waiting in the next one.
-/

namespace Madoka

open Octets

def maxRecvBufferSize : Nat := 8192
def recvChunkSize : Nat := 1024

structure TransportSessionState where
  /-- The socket handle is valid. -/
  socket : Bool
  tls : TlsSession
  isTls : Bool
  recvBuffer : Bytes
  isOpen : Bool
deriving DecidableEq

def transportClose (session : TransportSessionState) : TransportSessionState :=
  if session.isTls then
    { session with isOpen := false, tls := tlsDestroy session.tls, recvBuffer := [] }
  else { session with isOpen := false, socket := false, recvBuffer := [] }

/-! ## Sending -/

/-- What a finished call returns: the value, and `*error`. -/
structure SendReply where
  sent : Bool
  error : Option String

/-- The loop of `socket_send` calls. -/
def socketSendLoop (session : TransportSessionState) (error : Option String)
    (size totalSent : Nat) : List WriteOutcome → Option SendReply × TransportSessionState
  | [] => (if totalSent ≥ size then some ⟨true, error⟩ else none, session)
  | outcome :: rest =>
      if totalSent ≥ size then (some ⟨true, error⟩, session)
      else
        match outcome with
        | .moved count => socketSendLoop session error size (totalSent + count) rest
        | .failed _ text =>
            (some ⟨false, (text.map (setError error)).getD error⟩, transportClose session)

def transportSend (session : TransportSessionState) (message : Message) (error : Option String)
    (outcomes : List WriteOutcome) : Option SendReply × TransportSessionState :=
  if !session.isOpen then
    (some ⟨false, setError error "Transport session is closed"⟩, session)
  else
    match messageEncode message with
    | .error text => (some ⟨false, setError error text⟩, session)
    | .ok encoded =>
        if session.isTls then
          match tlsSend session.tls error encoded.length outcomes with
          | (none, tls) => (none, { session with tls := tls })
          | (some (.ok _), tls) => (some ⟨true, error⟩, { session with tls := tls })
          | (some (.error error), tls) =>
              (some ⟨false, error⟩, transportClose { session with tls := tls })
        else if !session.socket then
          (some ⟨false, setError error "Invalid socket handle"⟩, transportClose session)
        else socketSendLoop session error encoded.length 0 outcomes

/-! ## Receiving -/

def socketRecv (session : TransportSessionState) (error : Option String) (errno : Errno)
    (outcome : Option ReadOutcome) : Option ReadResult :=
  if !session.socket then
    some { bytesRead := none, connectionClosed := false, errno := errno
           error := setError error "Invalid socket handle" }
  else
    match outcome with
    | none => none
    | some (.data bytes) =>
        some { bytesRead := some bytes, connectionClosed := bytes = [], error := error
               errno := errno }
    | some .closed =>
        some { bytesRead := some [], connectionClosed := true, error := error, errno := errno }
    | some (.failed failure) =>
        some { bytesRead := none, connectionClosed := false, errno := failure.errno
               error := setError error failure.text }

/-- What a finished call returns: the message it hands out, or `none` for
false; `*connection_closed`; `*error`. -/
structure ReceiveReply where
  message : Option Message
  connectionClosed : Bool
  error : Option String
deriving DecidableEq

/-- Where one turn of the receive loop ends. -/
inductive Turn where
  /-- The call returns; the flag tells whether the turn's read took place. -/
  | stopped (reply : ReceiveReply) (consumed : Bool)
  /-- The read has not returned. -/
  | waiting
  | again (error : Option String) (errno : Errno)
deriving DecidableEq

/-- The first half of a turn: hand out a message the buffer holds. `.error`
carries `*error` on to the second half. -/
def takeBuffered (session : TransportSessionState) (error : Option String) :
    Except (Option String) ReceiveReply × TransportSessionState :=
  if session.recvBuffer.length < headerSize then (.error error, session)
  else
    match messagePeekSize session.recvBuffer with
    | .error text =>
        let error := match text with
          | some text => setError error text
          | none => error
        -- a null `error` lets the loop read on
        if error.getD "" ≠ "" then
          (.ok ⟨none, false, error⟩, transportClose session)
        else (.error error, session)
    | .ok expectedTotal =>
        if expectedTotal > maxMessageSize then
          (.ok ⟨none, false, setError error ("Message declared size (" ++ toString expectedTotal
            ++ ") exceeds limit of " ++ toString maxMessageSize ++ " bytes")⟩,
            transportClose session)
        else if session.recvBuffer.length ≥ expectedTotal then
          match messageDecode (session.recvBuffer.take expectedTotal) with
          | .error text => (.ok ⟨none, false, setError error text⟩, transportClose session)
          | .ok message =>
              (.ok ⟨some message, false, error⟩,
                { session with recvBuffer := session.recvBuffer.drop expectedTotal })
        else (.error error, session)

/-- The second half of a turn: read some more, at most `recvChunkSize` bytes
and no more than the buffer has room for. -/
def readMore (session : TransportSessionState) (error : Option String) (errno : Errno)
    (outcome : Option ReadOutcome) : Turn × TransportSessionState :=
  if session.recvBuffer.length ≥ maxRecvBufferSize then
    (.stopped ⟨none, false, setError error ("Receive buffer exceeded contract limit of "
      ++ toString maxRecvBufferSize ++ " bytes")⟩ false, transportClose session)
  else
    let readable :=
      if session.isTls then session.tls.nativeSsl && session.tls.established else session.socket
    let (result, session) :=
      if session.isTls then
        let (result, tls) := tlsReceive session.tls error errno outcome
        (result, { session with tls := tls })
      else (socketRecv session error errno outcome, session)
    match result with
    | none => (.waiting, session)
    | some result =>
        match result.bytesRead with
        | none =>
            if socketIsTimeoutError result.errno then
              (.stopped ⟨none, false, result.error.map fun _ => ""⟩ readable, session)
            else (.stopped ⟨none, false, result.error⟩ readable, transportClose session)
        | some bytes =>
            if bytes = [] ∧ result.connectionClosed then
              let session := transportClose session
              (.stopped ⟨none, true, if session.recvBuffer ≠ [] then
                setError result.error
                  "Connection closed cleanly by peer with incomplete message in buffer"
                else result.error⟩ readable, session)
            else
              (.again result.error result.errno,
                { session with recvBuffer := session.recvBuffer ++ bytes })

def transportReceiveTurn (session : TransportSessionState) (error : Option String)
    (errno : Errno) (outcome : Option ReadOutcome) : Turn × TransportSessionState :=
  match takeBuffered session error with
  | (.ok reply, session) => (.stopped reply false, session)
  | (.error error, session) => readMore session error errno outcome

/-- The `while (true)` loop. The reply is `none` while the call has not
returned; the last component is what is left of the outcomes. -/
def transportReceiveLoop (session : TransportSessionState) (error : Option String)
    (errno : Errno) :
    List ReadOutcome → Option ReceiveReply × TransportSessionState × List ReadOutcome
  | [] =>
      match transportReceiveTurn session error errno none with
      | (.stopped reply _, session) => (some reply, session, [])
      | (_, session) => (none, session, [])
  | outcome :: rest =>
      match transportReceiveTurn session error errno (some outcome) with
      | (.stopped reply consumed, session) =>
          (some reply, session, if consumed then rest else outcome :: rest)
      | (.waiting, session) => (none, session, outcome :: rest)
      | (.again error errno, session) => transportReceiveLoop session error errno rest

def transportReceive (session : TransportSessionState) (error : Option String) (errno : Errno)
    (outcomes : List ReadOutcome) :
    Option ReceiveReply × TransportSessionState × List ReadOutcome :=
  if !session.isOpen then
    (some ⟨none, false, setError error "Transport session is closed"⟩, session, outcomes)
  else transportReceiveLoop session error errno outcomes

/-! ## What closing and buffering leave alone -/

@[simp] theorem transportClose_isOpen (session : TransportSessionState) :
    (transportClose session).isOpen = false := by
  unfold transportClose
  split <;> rfl

@[simp] theorem transportClose_isTls (session : TransportSessionState) :
    (transportClose session).isTls = session.isTls := by
  unfold transportClose
  split <;> rfl

/-- The buffer half of a turn closes the session, or touches the buffer only
and goes on or hands out a message. -/
theorem takeBuffered_cases (session : TransportSessionState) (error : Option String) :
    (∃ reply, takeBuffered session error = (.ok reply, transportClose session))
    ∨ ∃ result n, takeBuffered session error
        = (result, { session with recvBuffer := session.recvBuffer.drop n })
      ∧ (∀ e, result = .error e → n = 0) := by
  unfold takeBuffered
  split
  · exact .inr ⟨_, 0, rfl, fun _ _ => rfl⟩
  · split
    · dsimp only
      split
      · split
        · exact .inl ⟨_, rfl⟩
        · exact .inr ⟨_, 0, rfl, fun _ _ => rfl⟩
      · split
        · exact .inl ⟨_, rfl⟩
        · exact .inr ⟨_, 0, rfl, fun _ _ => rfl⟩
    · split
      · exact .inl ⟨_, rfl⟩
      · split
        · split
          · exact .inl ⟨_, rfl⟩
          · exact .inr ⟨_, _, rfl, fun e h => nomatch h⟩
        · exact .inr ⟨_, 0, rfl, fun _ _ => rfl⟩

end Madoka

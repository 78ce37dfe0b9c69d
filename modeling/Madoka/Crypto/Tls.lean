import Madoka.Lib.Octets

/-!
# TLS

The record layer of a session after its handshake (`crypto/tls.cpp`), with
the outcome of every `SSL_read` and `SSL_write` as an argument.
-/

namespace Madoka

open Octets

/-- `errno`, by what the sources ask of it. -/
inductive Errno where
  | eagain
  | ewouldblock
  | etimedout
  | other (code : Nat)
deriving DecidableEq

def socketIsTimeoutError (errorCode : Errno) : Bool :=
  errorCode = .eagain ∨ errorCode = .ewouldblock ∨ errorCode = .etimedout

/-- `SSL_get_error` after a failed `SSL_read`, other than
`SSL_ERROR_ZERO_RETURN`. -/
inductive SslError where
  | syscall
  | other (code : Nat)
deriving DecidableEq

/-- A read that failed. A plain socket only sets `errno` and its text. -/
structure ReadFailure where
  code : SslError
  errno : Errno
  /-- What `socket_last_error_text` or `get_openssl_errors` say. -/
  text : String
  /-- `errno` once `SSL_shutdown` and `SSL_free` have run. -/
  errnoAfterClose : Errno
deriving DecidableEq

/-- How one `recv` or `SSL_read` returns. -/
inductive ReadOutcome where
  | data (bytes : Bytes)
  /-- `recv` returned 0; `SSL_ERROR_ZERO_RETURN`. -/
  | closed
  | failed (failure : ReadFailure)
deriving DecidableEq

/-- How one `send` or `SSL_write` returns. A `send` that returns 0 sets no
text; only `SSL_write` has a code. -/
inductive WriteOutcome where
  | moved (count : ℕ+)
  | failed (code : Nat) (text : Option String)

structure TlsSession where
  /-- `native_ssl` is not null. -/
  nativeSsl : Bool
  established : Bool
  /-- The socket handle is valid. -/
  socket : Bool
deriving DecidableEq

def tlsClose (session : TlsSession) : TlsSession :=
  { session with nativeSsl := false, established := false }

def tlsDestroy (session : TlsSession) : TlsSession :=
  { tlsClose session with socket := false }

/-- Assign to `*error` unless the pointer is null (`none`). -/
def setError (error : Option String) (text : String) : Option String :=
  error.map fun _ => text

/-- What a call that reads hands back. -/
structure ReadResult where
  /-- The bytes moved; `none` for -1. -/
  bytesRead : Option Bytes
  connectionClosed : Bool
  error : Option String
  errno : Errno

/-- `outcome` is what `SSL_read` returns, or `none` while it has not. -/
def tlsReceive (session : TlsSession) (error : Option String) (errno : Errno)
    (outcome : Option ReadOutcome) : Option ReadResult × TlsSession :=
  if !(session.nativeSsl && session.established) then
    (some { bytesRead := none, connectionClosed := false, errno := errno
            error := setError error "Cannot receive data: TLS session not established" }, session)
  else
    match outcome with
    | none => (none, session)
    | some (.data bytes) =>
        (some { bytesRead := some bytes, connectionClosed := false, error := error
                errno := errno }, session)
    | some .closed =>
        (some { bytesRead := some [], connectionClosed := true, error := error
                errno := errno }, tlsClose session)
    | some (.failed failure) =>
        match failure.code with
        | .syscall =>
            if socketIsTimeoutError failure.errno then
              (some { bytesRead := none, connectionClosed := false, errno := failure.errno
                      error := setError error "TLS read timed out via socket timeout" }, session)
            else
              (some { bytesRead := none, connectionClosed := false
                      errno := failure.errnoAfterClose
                      error := setError error ("TLS socket read error: " ++ failure.text) },
                tlsClose session)
        | .other code =>
            (some { bytesRead := none, connectionClosed := false
                    errno := failure.errnoAfterClose
                    error := setError error
                      ("SSL_read failed (code " ++ toString code ++ "): " ++ failure.text) },
              tlsClose session)

/-- The write loop: `none` while an `SSL_write` has not returned. -/
def tlsSendLoop (session : TlsSession) (error : Option String) (size totalWritten : Nat) :
    List WriteOutcome → Option (Except (Option String) Nat) × TlsSession
  | [] => (if totalWritten ≥ size then some (.ok totalWritten) else none, session)
  | outcome :: rest =>
      if totalWritten ≥ size then (some (.ok totalWritten), session)
      else
        match outcome with
        | .moved count => tlsSendLoop session error size (totalWritten + count) rest
        | .failed code text =>
            (some (.error (setError error
              ("SSL_write failed (code " ++ toString code ++ "): " ++ text.getD ""))), tlsClose session)

def tlsSend (session : TlsSession) (error : Option String) (size : Nat)
    (outcomes : List WriteOutcome) : Option (Except (Option String) Nat) × TlsSession :=
  if !(session.nativeSsl && session.established) then
    (some (.error (setError error "Cannot send data: TLS session not established")), session)
  else tlsSendLoop session error size 0 outcomes

/-! ## When the layer survives -/

/-- The layer has a live `SSL` object and finished its handshake. -/
def TlsSession.Live (session : TlsSession) : Prop :=
  session.nativeSsl = true ∧ session.established = true

section
variable {session : TlsSession} (error : Option String) (errno : Errno)

theorem tlsReceive_none (hlive : session.Live) :
    tlsReceive session error errno none = (none, session) := by
  simp [tlsReceive, hlive.1, hlive.2]

theorem tlsReceive_data (hlive : session.Live) (bytes : Bytes) :
    tlsReceive session error errno (some (.data bytes))
      = (some ⟨some bytes, false, error, errno⟩, session) := by
  simp [tlsReceive, hlive.1, hlive.2]

theorem tlsReceive_closed (hlive : session.Live) :
    tlsReceive session error errno (some .closed)
      = (some ⟨some [], true, error, errno⟩, tlsClose session) := by
  simp [tlsReceive, hlive.1, hlive.2]

/-- The one failure that the layer survives. -/
theorem tlsReceive_timeout (hlive : session.Live) {failure : ReadFailure}
    (hcode : failure.code = .syscall) (htime : socketIsTimeoutError failure.errno = true) :
    tlsReceive session error errno (some (.failed failure))
      = (some ⟨none, false, setError error "TLS read timed out via socket timeout",
          failure.errno⟩, session) := by
  simp [tlsReceive, hlive.1, hlive.2, hcode, htime]

theorem tlsReceive_failed (hlive : session.Live) {failure : ReadFailure}
    (h : ¬ (failure.code = .syscall ∧ socketIsTimeoutError failure.errno = true)) :
    ∃ text, tlsReceive session error errno (some (.failed failure))
      = (some ⟨none, false, setError error text, failure.errnoAfterClose⟩, tlsClose session) := by
  cases hcode : failure.code with
  | syscall =>
      have htime : socketIsTimeoutError failure.errno = false := by simpa [hcode] using h
      exact ⟨_, by simp only [tlsReceive, hlive.1, hlive.2, hcode, htime]; rfl⟩
  | other code => exact ⟨_, by simp only [tlsReceive, hlive.1, hlive.2, hcode]; rfl⟩

end

/-- A write loop that has not failed leaves the layer as it was. -/
theorem tlsSendLoop_session (session : TlsSession) (error : Option String) (size written : Nat)
    (outcomes : List WriteOutcome) :
    (∃ e, (tlsSendLoop session error size written outcomes).1 = some (.error e))
      ∨ (tlsSendLoop session error size written outcomes).2 = session := by
  induction outcomes generalizing written with
  | nil => exact .inr rfl
  | cons outcome rest ih =>
      unfold tlsSendLoop
      split
      · exact .inr rfl
      · cases outcome with
        | moved count => exact ih _
        | failed code text => exact .inl ⟨_, rfl⟩

end Madoka

import Madoka.Lib.Run
import Madoka.Transport.Framing

/-!
# TLS Liveness

The two open flags of a TLS session over any sequence of calls: the
transport's `is_open`, and the TLS layer's `established` with its `SSL`
object; and what a receive that times out leaves of the session.
-/

namespace Madoka

open Octets

/-! ## Calls -/

/-- One call on a session, with what its reads or writes come to. -/
inductive TransportCall where
  | send (message : Message) (error : Option String) (outcomes : List WriteOutcome)
  | receive (error : Option String) (errno : Errno) (outcomes : List ReadOutcome)
  | close

def transportStep (session : TransportSessionState) :
    TransportCall → TransportSessionState
  | .send message error outcomes => (transportSend session message error outcomes).2
  | .receive error errno outcomes => (transportReceive session error errno outcomes).2.1
  | .close => transportClose session

/-- The outcomes listed for a call are the ones its reads met. -/
def OutcomesMet (session : TransportSessionState) : TransportCall → Prop
  | .receive error errno outcomes => (transportReceive session error errno outcomes).2.2 = []
  | _ => True

/-- An open session has a live TLS layer. -/
def NotHalfDead (session : TransportSessionState) : Prop :=
  session.isOpen = true → session.tls.Live

/-- Later sends and receives still work: a message whose writes all move is
sent, and one whose rest is read is handed out. -/
structure TransportSessionState.Works (session : TransportSessionState) : Prop where
  sends : ∀ message error (counts : List ℕ+), Encodable message →
    (wireOf message).length ≤ (counts.map fun count : ℕ+ => (count : Nat)).sum →
      (transportSend session message error (counts.map .moved)).1 = some ⟨true, error⟩
  receives : ∀ message error errno outcomes, Encodable message →
    (∀ o ∈ outcomes, Delivers session.isTls o ∧ o.isFailed = false) →
    session.recvBuffer ++ received outcomes = wireOf message →
      ∃ error', (transportReceive session error errno outcomes).1
        = some ⟨some message, false, error'⟩

def sslErrorWantRead : SslError := .other 2

/-- A read that merely timed out: `errno` says so, and the code is one of the
two by which an expired `SO_RCVTIMEO` is reported. -/
def ReadFailure.TimedOut (failure : ReadFailure) : Prop :=
  socketIsTimeoutError failure.errno = true
    ∧ (failure.code = .syscall ∨ failure.code = sslErrorWantRead)

/-- A receive in which a read merely timed out leaves a session that works. -/
def SurvivesTimeout (session : TransportSessionState) : TransportCall → Prop
  | .receive error errno outcomes => ∀ failure, .failed failure ∈ outcomes → failure.TimedOut →
      (transportReceive session error errno outcomes).2.1.Works
  | _ => True

/-- The failures the two layers disagree about: `tls_receive` shuts the
layer down, and then `errno` reads as a timeout. -/
def ReadFailure.Splits (failure : ReadFailure) : Prop :=
  ¬ (failure.code = .syscall ∧ socketIsTimeoutError failure.errno = true)
    ∧ socketIsTimeoutError failure.errnoAfterClose = true

/-- The failures that cost the session its layer without need: those the two
layers disagree about, and every timeout that comes as `SSL_ERROR_WANT_READ`. -/
def ReadFailure.Harms (failure : ReadFailure) : Prop :=
  failure.Splits
    ∨ failure.code = sslErrorWantRead ∧ socketIsTimeoutError failure.errno = true

/-- No read of the call meets such a failure. -/
def NoHarm : TransportCall → Prop
  | .receive _ _ outcomes => ∀ failure, .failed failure ∈ outcomes → ¬ failure.Harms
  | _ => True

/-! ## A session that works -/

theorem tlsSendLoop_moved (session : TlsSession) (error : Option String) {size : Nat}
    {counts : List ℕ+} {written : Nat}
    (hall : size ≤ written + (counts.map fun count : ℕ+ => (count : Nat)).sum) :
    ∃ n, tlsSendLoop session error size written (counts.map .moved) = (some (.ok n), session) := by
  induction counts generalizing written with
  | nil => exact ⟨written, by simpa [tlsSendLoop] using hall⟩
  | cons count counts ih =>
      rw [List.map_cons, tlsSendLoop]
      split
      · exact ⟨written, rfl⟩
      · apply ih
        rw [List.map_cons, List.sum_cons] at hall
        omega

theorem timeouts_eq_zero {outcomes : List ReadOutcome} (h : ∀ o ∈ outcomes, o.isFailed = false) :
    timeouts outcomes = 0 := by
  rw [timeouts, List.countP_eq_zero]
  intro o ho
  simp [h o ho]

/-- An open session works exactly over a live layer. -/
theorem works_iff {session : TransportSessionState} (htls : session.isTls = true) :
    session.Works ↔ session.isOpen = true ∧ session.tls.Live := by
  constructor
  · intro h
    obtain ⟨bytes, hencode⟩ : Encodable ⟨1, .keepAlive, []⟩ := ⟨_, rfl⟩
    have hlength : bytes.length = 4 := (messageEncode_length hencode).1
    have hsend := h.sends ⟨1, .keepAlive, []⟩ none [4] ⟨bytes, hencode⟩ (by
      rw [wireOf_encode hencode, hlength]
      decide)
    unfold transportSend at hsend
    rw [hencode] at hsend
    by_cases hopen : session.isOpen = true
    · refine ⟨hopen, ?_⟩
      by_cases hlive : (session.tls.nativeSsl && session.tls.established) = true
      · simpa [TlsSession.Live] using hlive
      · simp [hopen, htls, tlsSend, hlive] at hsend
    · simp [hopen] at hsend
  · intro h
    obtain ⟨hopen, hlive⟩ := h
    have hready : LayerReady session := by
      rw [LayerReady, if_pos htls]
      exact hlive
    constructor
    · intro message error counts hencodable hall
      obtain ⟨encoded, hencode⟩ := hencodable
      rw [wireOf_encode hencode] at hall
      rw [← Nat.zero_add (List.sum _)] at hall
      obtain ⟨n, hsend⟩ := tlsSendLoop_moved session.tls error hall
      unfold transportSend
      simp [hopen, hencode, htls, tlsSend, hlive.1, hlive.2, hsend]
    · intro message error errno outcomes hencodable hdelivers hstream
      have hwire : session.recvBuffer ++ (received outcomes ++ []) = wire [message] := by
        rw [List.append_nil, hstream]
        simp [wire]
      have hbound : BufferBounded session.recvBuffer := by
        obtain ⟨encoded, hencode⟩ := hencodable
        have hmax := (messageEncode_length hencode).2.2
        have hlength := congrArg List.length hstream
        rw [wireOf_encode hencode, List.length_append] at hlength
        rw [BufferBounded]
        simp only [recvChunkSize]
        omega
      have hmessages : ∀ m ∈ [message], Encodable m := by simpa using hencodable
      obtain ⟨consumed, buffer, hconsumed, -, -, hend, hrest⟩ := transportReceiveLoop_wire hready
        hmessages (fun o ho => (hdelivers o ho).1) hbound hwire error errno
      have hnone : timeouts consumed = 0 := by
        apply timeouts_eq_zero
        intro o ho
        apply (hdelivers o _).2
        rw [hconsumed]
        exact List.mem_append_left _ ho
      rw [transportReceive, if_neg (by simp [hopen])]
      generalize transportReceiveLoop session error errno outcomes = result at *
      obtain ⟨reply, session', left⟩ := result
      dsimp only at *
      cases hend with
      | delivered m rest e hms _ _ =>
          cases hms
          exact ⟨e, rfl⟩
      | timedOut e hone _ => omega
      | waiting _ hbuffer hshort =>
          -- all is read, so the buffer holds the whole message
          rw [hrest rfl, List.append_nil] at hconsumed
          rw [← hconsumed, hstream] at hbuffer
          have hless := hshort message [] rfl
          rw [hbuffer] at hless
          exact absurd hless (Nat.lt_irrefl _)

/-! ## One turn of the receive loop -/

/-- What the last read of a call leaves when nothing goes wrong. -/
structure ReadLeaves (outcome : ReadOutcome) (session : TransportSessionState) : Prop where
  agrees : NotHalfDead session
  survives : ∀ failure, outcome = .failed failure → failure.TimedOut → session.Works

theorem readLeaves_closed {outcome : ReadOutcome} {session : TransportSessionState}
    (htls : session.isTls = true) (hclosed : session.isOpen = false) :
    ReadLeaves outcome session ↔ ∀ failure, outcome = .failed failure → ¬ failure.TimedOut := by
  constructor
  · intro h failure ho htimed
    have hopen := ((works_iff htls).mp (h.survives failure ho htimed)).1
    rw [hclosed] at hopen
    cases hopen
  · intro h
    refine ⟨fun hopen => ?_, fun failure ho htimed => absurd htimed (h failure ho)⟩
    rw [hclosed] at hopen
    cases hopen

/-- A timeout that comes as `SSL_ERROR_SYSCALL` does no harm. -/
theorem ReadFailure.not_harms_syscall {failure : ReadFailure} (hcode : failure.code = .syscall)
    (htime : socketIsTimeoutError failure.errno = true) : ¬ failure.Harms := by
  rintro (hsplits | ⟨hwant, -⟩)
  · exact hsplits.1 ⟨hcode, htime⟩
  · rw [hcode] at hwant
    cases hwant

/-- Of the failures that shut the layer down and leave `errno` without a
timeout, those that were timeouts do harm. -/
theorem ReadFailure.harms_iff_timedOut {failure : ReadFailure}
    (hshut : ¬ (failure.code = .syscall ∧ socketIsTimeoutError failure.errno = true))
    (hafter : ¬ socketIsTimeoutError failure.errnoAfterClose = true) :
    failure.Harms ↔ failure.TimedOut := by
  simp only [Harms, Splits, TimedOut]
  tauto

/-- What one read of an open session over a live layer leads to. -/
theorem readMore_live {session : TransportSessionState} (htls : session.isTls = true)
    (hlive : session.tls.Live) (error : Option String) (errno : Errno)
    (outcome : Option ReadOutcome) :
    match readMore session error errno outcome with
    | (.again _ _, session') =>
        session'.isTls = true ∧ session'.tls.Live ∧ session'.isOpen = session.isOpen
          ∧ ∃ bytes, outcome = some (.data bytes)
    | (.waiting, session') => session' = session ∧ outcome = none
    | (.stopped _ false, session') => session'.isTls = true ∧ session'.isOpen = false
    | (.stopped _ true, session') =>
        session'.isTls = true ∧ ∃ o, outcome = some o
          ∧ (session.isOpen = true → (ReadLeaves o session'
            ↔ ∀ failure, o = .failed failure → ¬ failure.Harms)) := by
  have hlayer : (session.tls.nativeSsl && session.tls.established) = true := by
    rw [hlive.1, hlive.2]; rfl
  obtain ⟨socket, tls, isTls, recvBuffer, isOpen⟩ := session
  cases htls
  unfold readMore
  by_cases hfull : recvBuffer.length ≥ maxRecvBufferSize
  · rw [if_pos hfull]
    exact ⟨by simp, by simp⟩
  · rw [if_neg hfull]
    simp only [if_true]
    cases outcome with
    | none =>
        rw [tlsReceive_none error errno hlive]
        exact ⟨rfl, rfl⟩
    | some o =>
        cases o with
        | data bytes =>
            rw [tlsReceive_data error errno hlive]
            simpa using hlive
        | closed =>
            rw [tlsReceive_closed error errno hlive]
            simp [hlayer, readLeaves_closed]
        | failed failure =>
            by_cases hsurvives : failure.code = .syscall
                ∧ socketIsTimeoutError failure.errno = true
            · rw [tlsReceive_timeout error errno hlive hsurvives.1 hsurvives.2]
              have hno := ReadFailure.not_harms_syscall hsurvives.1 hsurvives.2
              have hleaves : ∀ buffer, isOpen = true →
                  ReadLeaves (.failed failure) ⟨socket, tls, true, buffer, isOpen⟩ :=
                fun _ hopen => ⟨fun _ => hlive, fun _ _ _ => (works_iff rfl).mpr ⟨hopen, hlive⟩⟩
              simpa [hlayer, hsurvives.2, hno] using hleaves recvBuffer
            · obtain ⟨text, htext⟩ := tlsReceive_failed error errno hlive hsurvives
              rw [htext]
              by_cases hafter : socketIsTimeoutError failure.errnoAfterClose = true
              · have hharms : failure.Harms := .inl ⟨hsurvives, hafter⟩
                have hdead : isOpen = true →
                    ¬ ReadLeaves (.failed failure) ⟨socket, tlsClose tls, true, recvBuffer, isOpen⟩ :=
                  fun hopen h => absurd (h.agrees hopen).1 (by simp [tlsClose])
                simpa [hlayer, hafter, hharms] using hdead
              · have hiff := ReadFailure.harms_iff_timedOut hsurvives hafter
                simp [hlayer, hafter, readLeaves_closed, hiff]

theorem transportReceiveTurn_live {session : TransportSessionState} (htls : session.isTls = true)
    (hopen : session.isOpen = true) (hlive : session.tls.Live) (error : Option String)
    (errno : Errno) (outcome : Option ReadOutcome) :
    match transportReceiveTurn session error errno outcome with
    | (.again _ _, session') =>
        session'.isTls = true ∧ session'.isOpen = true ∧ session'.tls.Live
          ∧ ∃ bytes, outcome = some (.data bytes)
    | (.waiting, session') => session' = session ∧ outcome = none
    | (.stopped _ false, session') => session'.isTls = true ∧ NotHalfDead session'
    | (.stopped _ true, session') =>
        session'.isTls = true ∧ ∃ o, outcome = some o
          ∧ (ReadLeaves o session' ↔ ∀ failure, o = .failed failure → ¬ failure.Harms) := by
  unfold transportReceiveTurn
  rcases takeBuffered_cases session error with ⟨reply, htake⟩ | ⟨result, n, htake, hn⟩
  · rw [htake]
    exact ⟨by simp [htls], by simp [NotHalfDead]⟩
  · rw [htake]
    cases result with
    | ok reply => exact ⟨htls, fun _ => hlive⟩
    | error error' =>
        have hsame : { session with recvBuffer := session.recvBuffer.drop n } = session := by
          rw [hn _ rfl, List.drop_zero]
        rw [hsame]
        have hread := readMore_live htls hlive error' errno outcome
        dsimp only
        generalize readMore session error' errno outcome = turn at hread ⊢
        obtain ⟨turn, session'⟩ := turn
        cases turn with
        | again e n =>
            obtain ⟨htls', hlive', hopen', hdata⟩ := hread
            exact ⟨htls', hopen'.trans hopen, hlive', hdata⟩
        | waiting => exact hread
        | stopped reply consumed =>
            cases consumed with
            | false =>
                obtain ⟨htls', hclosed⟩ := hread
                exact ⟨htls', fun h => absurd h (by simp [hclosed])⟩
            | true =>
                obtain ⟨htls', o, ho, hiff⟩ := hread
                exact ⟨htls', o, ho, hiff hopen⟩

/-! ## One call -/

/-- A receive on an open, live session goes right exactly when none of the
reads it made failed in a way that does harm. -/
theorem transportReceiveLoop_live {outcomes : List ReadOutcome}
    {session : TransportSessionState} {error : Option String} {errno : Errno}
    (htls : session.isTls = true) (hopen : session.isOpen = true) (hlive : session.tls.Live)
    (hmet : (transportReceiveLoop session error errno outcomes).2.2 = []) :
    (transportReceiveLoop session error errno outcomes).2.1.isTls = true
      ∧ ((NotHalfDead (transportReceiveLoop session error errno outcomes).2.1
          ∧ ∀ failure, .failed failure ∈ outcomes → failure.TimedOut →
            (transportReceiveLoop session error errno outcomes).2.1.Works)
        ↔ ∀ failure, .failed failure ∈ outcomes → ¬ failure.Harms) := by
  induction outcomes generalizing session error errno with
  | nil =>
      have hturn := transportReceiveTurn_live htls hopen hlive error errno none
      simp only [List.not_mem_nil, false_implies, implies_true, and_true, iff_true]
      unfold transportReceiveLoop
      generalize transportReceiveTurn session error errno none = turn at hturn ⊢
      obtain ⟨turn, session'⟩ := turn
      cases turn with
      | again e n =>
          obtain ⟨htls', -, hlive', -⟩ := hturn
          exact ⟨htls', fun _ => hlive'⟩
      | waiting =>
          obtain ⟨rfl, -⟩ := hturn
          exact ⟨htls, fun _ => hlive⟩
      | stopped reply consumed =>
          cases consumed with
          | false => exact hturn
          | true =>
              obtain ⟨-, o, ho, -⟩ := hturn
              cases ho
  | cons outcome rest ih =>
      have hturn := transportReceiveTurn_live htls hopen hlive error errno (some outcome)
      unfold transportReceiveLoop at hmet ⊢
      generalize transportReceiveTurn session error errno (some outcome) = turn at hturn hmet ⊢
      obtain ⟨turn, session'⟩ := turn
      cases turn with
      | again e n =>
          obtain ⟨htls', hopen', hlive', bytes, hdata⟩ := hturn
          cases hdata
          simpa using ih htls' hopen' hlive' hmet
      | waiting => cases hturn.2
      | stopped reply consumed =>
          cases consumed with
          | false => cases hmet
          | true =>
              obtain ⟨htls', o, ho, hiff⟩ := hturn
              cases ho
              dsimp only at hmet
              rw [if_pos rfl] at hmet
              subst hmet
              have hlast : ∀ failure, .failed failure ∈ [outcome] ↔ outcome = .failed failure :=
                fun failure => by rw [List.mem_singleton, eq_comm]
              simp only [hlast]
              exact ⟨htls', ⟨fun h => hiff.mp ⟨h.1, h.2⟩, fun h =>
                ⟨(hiff.mpr h).agrees, (hiff.mpr h).survives⟩⟩⟩

theorem transportSend_live {session : TransportSessionState} (htls : session.isTls = true)
    (h : NotHalfDead session) (message : Message) (error : Option String)
    (outcomes : List WriteOutcome) :
    (transportSend session message error outcomes).2.isTls = true
      ∧ NotHalfDead (transportSend session message error outcomes).2 := by
  unfold transportSend
  split
  · exact ⟨htls, h⟩
  · split
    · exact ⟨htls, h⟩
    · rename_i hopen _ encoded hencode
      have hlive : session.tls.Live := h (by simpa using hopen)
      have hsend : tlsSend session.tls error encoded.length outcomes
          = tlsSendLoop session.tls error encoded.length 0 outcomes := by
        simp [tlsSend, hlive.1, hlive.2]
      rw [hsend]
      rcases tlsSendLoop_session session.tls error encoded.length 0 outcomes with ⟨e, he⟩ | hsame
      · generalize tlsSendLoop session.tls error encoded.length 0 outcomes = result at he ⊢
        obtain ⟨result, tls⟩ := result
        cases he
        exact ⟨by simp [htls], by simp [NotHalfDead]⟩
      · generalize tlsSendLoop session.tls error encoded.length 0 outcomes = result at hsame ⊢
        obtain ⟨result, tls⟩ := result
        cases hsame
        cases result with
        | none => exact ⟨htls, h⟩
        | some result =>
            cases result with
            | ok n => exact ⟨htls, h⟩
            | error e => exact ⟨by simp [htls], by simp [NotHalfDead]⟩

/-- From a session whose flags agree, a call goes right exactly when none of
its reads fails in a way that does harm. -/
theorem transportStep_live {session : TransportSessionState} {call : TransportCall}
    (htls : session.isTls = true) (h : NotHalfDead session) (hmet : OutcomesMet session call) :
    (transportStep session call).isTls = true
      ∧ (NotHalfDead (transportStep session call) ∧ SurvivesTimeout session call
        ↔ NoHarm call) := by
  cases call with
  | send message error outcomes =>
      obtain ⟨htls', h'⟩ := transportSend_live htls h message error outcomes
      exact ⟨htls', iff_of_true ⟨h', trivial⟩ trivial⟩
  | close =>
      refine ⟨by simp [transportStep, htls], iff_of_true ⟨?_, trivial⟩ trivial⟩
      simp [transportStep, NotHalfDead]
  | receive error errno outcomes =>
      simp only [OutcomesMet, transportStep, SurvivesTimeout, NoHarm] at hmet ⊢
      by_cases hopen : session.isOpen = true
      · simp only [transportReceive, hopen, Bool.not_true, Bool.false_eq_true, if_false]
          at hmet ⊢
        exact transportReceiveLoop_live htls hopen (h hopen) hmet
      · -- a closed session reads nothing
        have hclosed : session.isOpen = false := by simpa using hopen
        simp only [transportReceive, hclosed, Bool.not_false, if_true] at hmet ⊢
        subst hmet
        exact ⟨htls, iff_of_true ⟨h, by simp⟩ (by simp)⟩

/-! ## Runs -/

/-- From a session whose handshake is done, the two flags agree after every
call of a run, and every receive that merely times out leaves a session that
works, exactly when no read of the run fails with the TLS layer shut down and
a timeout left in `errno`, or times out with `SSL_ERROR_WANT_READ`. -/
theorem tls_session_runs {session : TransportSessionState} (htls : session.isTls = true)
    (hlive : session.tls.Live) {calls : List TransportCall}
    (hmet : Run.Along transportStep OutcomesMet session calls) :
    Run.Throughout transportStep NotHalfDead session calls
        ∧ Run.Along transportStep SurvivesTimeout session calls
      ↔ Run.Along transportStep (fun _ call => NoHarm call) session calls := by
  have hstart : session.isTls = true ∧ NotHalfDead session := ⟨htls, fun _ => hlive⟩
  have hrun : Run.Along transportStep (fun s call => NotHalfDead (transportStep s call)
        ∧ SurvivesTimeout s call) session calls
      ↔ Run.Along transportStep (fun _ call => NoHarm call) session calls := by
    refine Run.along_iff (I := fun s => s.isTls = true ∧ NotHalfDead s) ?_ ?_ hstart hmet
    · intro s call hs hmet h
      exact ⟨(transportStep_live hs.1 hs.2 hmet).1, h.1⟩
    · intro s call hs hmet
      exact (transportStep_live hs.1 hs.2 hmet).2
  rw [← hrun, Run.along_and]
  exact ⟨fun h => ⟨h.1.2, h.2⟩, fun h => ⟨⟨fun _ => hlive, h.1⟩, h.2⟩⟩

/-! ## Timeouts -/

/-- A session as `transport_connect_tls` leaves it. -/
def connectedTls : TransportSessionState where
  socket := true
  tls := { nativeSsl := true, established := true, socket := true }
  isTls := true
  recvBuffer := []
  isOpen := true

/-- An expired receive timeout as `SSL_ERROR_SYSCALL` reports it. -/
def syscallTimeout : ReadFailure where
  code := .syscall
  errno := .eagain
  text := ""
  errnoAfterClose := .eagain

/-- The same as `SSL_ERROR_WANT_READ`; the shutdown leaves `errno`. -/
def wantReadTimeout (errnoAfterClose : Errno) : ReadFailure :=
  { syscallTimeout with code := sslErrorWantRead, errnoAfterClose := errnoAfterClose }

/-- One receive whose read fails. -/
def failedReceive (failure : ReadFailure) : TransportCall :=
  .receive (some "") (.other 0) [.failed failure]

theorem tls_session_survives_syscall_timeout :
    Run.Throughout transportStep NotHalfDead connectedTls [failedReceive syscallTimeout]
      ∧ Run.Along transportStep SurvivesTimeout connectedTls [failedReceive syscallTimeout] := by
  have hmet : Run.Along transportStep OutcomesMet connectedTls [failedReceive syscallTimeout] :=
    ⟨rfl, trivial⟩
  refine (tls_session_runs rfl ⟨rfl, rfl⟩ hmet).mpr ⟨?_, trivial⟩
  intro failure hmem
  cases List.mem_singleton.mp hmem
  exact ReadFailure.not_harms_syscall rfl rfl

/-- A receive that times out with `SSL_ERROR_WANT_READ` closes the session
when the shutdown clears `errno`, and leaves it open over a dead layer when
`errno` still says that it timed out. -/
theorem tls_session_lost :
    (Run.Along transportStep OutcomesMet connectedTls [failedReceive (wantReadTimeout (.other 0))]
      ∧ ¬ Run.Along transportStep SurvivesTimeout connectedTls
        [failedReceive (wantReadTimeout (.other 0))])
    ∧ Run.Along transportStep OutcomesMet connectedTls [failedReceive (wantReadTimeout .eagain)]
      ∧ ¬ Run.Throughout transportStep NotHalfDead connectedTls
        [failedReceive (wantReadTimeout .eagain)] := by
  refine ⟨⟨⟨rfl, trivial⟩, fun h => ?_⟩, ⟨rfl, trivial⟩, fun h => ?_⟩
  · have hworks := h.1 (wantReadTimeout (.other 0)) List.mem_cons_self ⟨rfl, .inr rfl⟩
    exact absurd ((works_iff (by decide)).mp hworks).1 (by decide)
  · have hlive : TlsSession.Live _ := h.2.1 rfl
    exact absurd hlive.2 (by decide)

end Madoka

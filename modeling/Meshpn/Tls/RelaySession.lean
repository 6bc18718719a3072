import Meshpn.Lib.Bytes

/-!
The lifecycle of a relay session. A socket is owned from `add` until its event `close`; a
provisional candidate is retired when it fails before it is connected, and stays owned. Sockets
do not call back while they are called, so that a listener runs as one step.
-/

namespace Meshpn.Tls.Session

/-- `state` of `connectCandidate`. -/
inductive Attempt where
  | pending
  | failed
  | connected
  deriving DecidableEq, Repr

structure Socket where
  /-- The provisional candidate that the socket belongs to, if it is one. -/
  attempt : Option Attempt
  /-- The socket is in `sockets`. -/
  owned : Bool
  destroyed : Bool
  /-- The event `close`. -/
  closed : Bool
  readableEnded : Bool
  writableFinished : Bool
  deriving DecidableEq, Repr

/-- What a timer was started for. -/
inductive Timer where
  /-- `readRelayHello`. -/
  | hello
  /-- `connectRelayDestination`. -/
  | destination
  /-- The deadline of the retry guard. -/
  | handshake
  /-- `wait(socket, 'connect')`. -/
  | connect (i : Nat)
  /-- `wait(socket, 'drain')`. -/
  | write (i : Nat)
  /-- `pump`, whose destination is the socket. -/
  | drain (i : Nat)
  | close
  /-- The attempt with a candidate. -/
  | attempt (i : Nat)
  deriving DecidableEq, Repr

/-- The code of the error when a timer expires. -/
def Timer.code : Timer → String
  | .hello => "TLS_RELAY_HELLO_TIMEOUT"
  | .destination | .connect _ => "TLS_RELAY_CONNECT_TIMEOUT"
  | .handshake => "TLS_RELAY_HANDSHAKE_TIMEOUT"
  | .write _ | .drain _ => "TLS_RELAY_WRITE_TIMEOUT"
  | .close => "TLS_RELAY_CLOSE_TIMEOUT"
  | .attempt _ => "TLS_RELAY_CONNECT_ATTEMPT_TIMEOUT"

inductive State where
  | hello
  | connecting
  | streaming
  | closed
  deriving DecidableEq, Repr

structure RelaySession where
  /-- All sockets that were handed to `add`. -/
  sockets : List Socket
  timers : List Timer
  state : State
  /-- `signal.aborted`. -/
  aborted : Bool
  error : Option String
  /-- `cancelCloseTimer` is set. -/
  closing : Bool
  /-- What `resolveClosed` was called with. -/
  resolved : List (Option String)
  /-- What `onSessionError` was called with. -/
  reported : List String
  deriving DecidableEq, Repr

/-- A socket as it is handed over. -/
structure Given where
  closed : Bool
  destroyed : Bool
  /-- It is connected already. -/
  connected : Bool
  deriving DecidableEq, Repr

namespace RelaySession

def put (s : RelaySession) (i : Nat) (socket : Socket) : RelaySession :=
  { s with sockets := s.sockets.set i socket }

/-- `!this.sockets.size`. -/
def idle (s : RelaySession) : Bool := !s.sockets.any Socket.owned

/-- A pending candidate fails when the session is aborted. -/
def abortAttempt (socket : Socket) : Socket :=
  if socket.attempt = some .pending then
    { socket with attempt := some .failed, destroyed := true }
  else socket

/-- `resolveClosed`, where no socket is left. -/
def resolveIdle (s : RelaySession) (error : Option String) : RelaySession :=
  if s.idle then { s with resolved := s.resolved ++ [error] } else s

def finish (s : RelaySession) (error : Option String) : RelaySession :=
  if s.aborted then s
  else
    { s with
      state := .closed
      error := error
      aborted := true
      sockets := s.sockets.map abortAttempt
      timers := [] }.resolveIdle error

/-- `socket.destroy()`, of the sockets that are owned. -/
def destroyOwned (s : RelaySession) : RelaySession :=
  { s with
    sockets := s.sockets.map fun socket =>
      if socket.owned then { socket with destroyed := true } else socket }

def fail (s : RelaySession) (code : String) : RelaySession :=
  if s.aborted then s
  else { (s.finish (some code)).destroyOwned with reported := s.reported ++ [code] }

def startTimer (s : RelaySession) (t : Timer) : RelaySession := { s with timers := s.timers ++ [t] }

def cancelTimer (s : RelaySession) (t : Timer) : RelaySession := { s with timers := s.timers.erase t }

/-- `add`. The socket is the last one of the session. -/
def add (s : RelaySession) (given : Given) (attempt : Option Attempt) : RelaySession :=
  let socket : Socket := ⟨attempt, !given.closed, given.closed || given.destroyed, given.closed,
    false, false⟩
  let s := { s with sockets := s.sockets ++ [socket] }
  if given.closed || given.destroyed then s.fail "TLS_RELAY_CLOSED" else s

/-- `new RelaySession(socket)`. -/
def start (given : Given) : RelaySession :=
  RelaySession.add ⟨[], [], .hello, false, none, false, [], []⟩ given none

/-- `connectingFailure`: whether the error is that of an attempt, and what it changes. -/
def attemptFailed (s : RelaySession) (i : Nat) (socket : Socket) : Option RelaySession :=
  match socket.attempt with
  | none | some .connected => none
  | some .failed => some s
  | some .pending =>
    some ((s.put i { socket with attempt := some .failed, destroyed := true }).cancelTimer
      (.attempt i))

/-- `if (!connectingFailure?.(error)) this.fail(error)`. -/
def socketFailed (s : RelaySession) (i : Nat) (socket : Socket) (code : String) : RelaySession :=
  (s.attemptFailed i socket).getD (s.fail code)

/-- `connect`; without a socket its factory throws. -/
def connect (s : RelaySession) (given : Option Given) : RelaySession :=
  if s.aborted then s
  else
    let s := { s with state := .connecting }
    match given with
    | none => s
    | some given =>
      let i := s.sockets.length
      let s := s.add given none
      if s.aborted || given.connected then s else s.startTimer (.connect i)

/-- The end of `connectCandidate`: the attempt's timer, or no attempt any more. -/
def watch (s : RelaySession) (i : Nat) (connected timeout : Bool) : RelaySession :=
  match s.sockets[i]? with
  | none => s
  | some socket =>
    if connected then s.put i { socket with attempt := some .connected }
    else if timeout then s.startTimer (.attempt i)
    else s

/-- `connectCandidate`; without a socket its factory throws, and nothing is left of it. -/
def connectCandidate (s : RelaySession) (given : Option Given) (timeout : Bool) : RelaySession :=
  if s.aborted then s
  else
    let s := { s with state := .connecting }
    match given with
    | none => s
    | some given =>
      let i := s.sockets.length
      let s := s.add given (some .pending)
      if s.aborted then s else s.watch i given.connected timeout

/-- `bridge`, up to its first write. -/
def bridge (s : RelaySession) : RelaySession :=
  if s.aborted then s else { s with state := .streaming }

/-- A timer of `readRelayHello`, of `connectRelayDestination`, of the guard, of `write` or of
`pump`, all behind a check. -/
def call (s : RelaySession) (t : Timer) : RelaySession :=
  if s.aborted then s else s.startTimer t

/-- `socket.once('connect', ..)`. -/
def onConnect (s : RelaySession) (i : Nat) : RelaySession :=
  match s.sockets[i]? with
  | none => s
  | some socket =>
    if !socket.owned then s
    else
      match socket.attempt with
      | some .pending =>
        (s.put i { socket with attempt := some .connected }).cancelTimer (.attempt i)
      | _ => s.cancelTimer (.connect i)

def onError (s : RelaySession) (i : Nat) : RelaySession :=
  match s.sockets[i]? with
  | none => s
  | some socket => if socket.owned then s.socketFailed i socket "TLS_RELAY_SOCKET" else s

/-- `onEnd`, of a socket whose `readableEnded` is set. -/
def ended (s : RelaySession) (i : Nat) (socket : Socket) : RelaySession :=
  if s.state ≠ .streaming then s.socketFailed i socket "TLS_RELAY_EOF"
  else if s.closing then s
  else { s.startTimer .close with closing := true }

def onEnd (s : RelaySession) (i : Nat) : RelaySession :=
  match s.sockets[i]? with
  | none => s
  | some socket =>
    if socket.owned then
      (s.put i { socket with readableEnded := true }).ended i { socket with readableEnded := true }
    else s

/-- `onClose`, of a socket that is no longer in the set. -/
def gone (s : RelaySession) (i : Nat) (socket : Socket) : RelaySession :=
  if s.aborted then s.resolveIdle s.error
  else
    match s.attemptFailed i socket with
    | some s => s
    | none =>
      if s.state ≠ .streaming || !socket.readableEnded || !socket.writableFinished then
        s.fail "TLS_RELAY_CLOSED"
      else if s.idle then s.finish none
      else s

def onClose (s : RelaySession) (i : Nat) : RelaySession :=
  match s.sockets[i]? with
  | none => s
  | some socket =>
    if socket.owned then
      let socket := { socket with owned := false, destroyed := true, closed := true }
      (s.put i socket).gone i socket
    else s

/-- All that was written has left the socket. -/
def onFinish (s : RelaySession) (i : Nat) : RelaySession :=
  match s.sockets[i]? with
  | none => s
  | some socket => s.put i { socket with writableFinished := true }

/-- The socket is destroyed from outside. -/
def onLost (s : RelaySession) (i : Nat) : RelaySession :=
  match s.sockets[i]? with
  | none => s
  | some socket => s.put i { socket with destroyed := true }

/-- A timer expires. -/
def expire (s : RelaySession) (t : Timer) : RelaySession :=
  if t ∈ s.timers then
    let s := s.cancelTimer t
    match t with
    | .attempt i =>
      match s.sockets[i]? with
      | none => s
      | some socket => (s.attemptFailed i socket).getD s
    | _ => s.fail t.code
  else s

end RelaySession

/-- What can happen next. What cannot happen in a state leaves it as it is. -/
inductive Event where
  | connect (given : Option Given)
  | connectCandidate (given : Option Given) (timeout : Bool)
  | bridge
  | call (t : Timer)
  /-- What the timer was for is over. -/
  | cancel (t : Timer)
  | fail (code : String)
  | onConnect (i : Nat)
  | onError (i : Nat)
  | onEnd (i : Nat)
  | onClose (i : Nat)
  | onFinish (i : Nat)
  | onLost (i : Nat)
  | expire (t : Timer)
  deriving DecidableEq

def step (s : RelaySession) : Event → RelaySession
  | .connect given => s.connect given
  | .connectCandidate given timeout => s.connectCandidate given timeout
  | .bridge => s.bridge
  | .call t => s.call t
  | .cancel t => s.cancelTimer t
  | .fail code => s.fail code
  | .onConnect i => s.onConnect i
  | .onError i => s.onError i
  | .onEnd i => s.onEnd i
  | .onClose i => s.onClose i
  | .onFinish i => s.onFinish i
  | .onLost i => s.onLost i
  | .expire t => s.expire t

def run (given : Given) (events : List Event) : RelaySession :=
  events.foldl step (.start given)

end Meshpn.Tls.Session

import Mathlib.Logic.Function.Basic

/-!
Session keys between two nodes. Each side makes an ephemeral key when it
initiates a connection and when it is asked for one, and sends the public part
through the signalling server; the other side's answer completes the session
that is there when it comes in. Signalling work runs one task at a time, and a
task that waits for the transport keeps the others waiting; transport events and
the timer of a left peer run in between.

The descriptions and candidates that travel with the keys are left out, and so
is everything that no decision about a session reads.
-/

namespace Meshpn.Control

/-- Key exchange and key derivation: the two ways round of a shared secret agree. -/
structure KeyExchange (Priv Pub Secret Key : Type) where
  getPublicKey : Priv → Pub
  getSharedSecret : Priv → Pub → Secret
  hkdf : Secret → Key
  comm : ∀ a b, getSharedSecret a (getPublicKey b) = getSharedSecret b (getPublicKey a)

structure Session (Priv Key : Type) where
  privateKey : Priv
  sessionKey : Option Key
  established : Bool

def KeyExchange.deriveSessionKey {Priv Pub Secret Key : Type}
    (kx : KeyExchange Priv Pub Secret Key) (priv : Priv) (peerPublicKey : Pub) : Key :=
  kx.hkdf (kx.getSharedSecret priv peerPublicKey)

def Session.complete {Priv Pub Secret Key : Type} (kx : KeyExchange Priv Pub Secret Key)
    (session : Session Priv Key) (peerPublicKey : Pub) : Session Priv Key :=
  { session with
    sessionKey := some (kx.deriveSessionKey session.privateKey peerPublicKey)
    established := true }

def Session.key {Priv Key : Type} (session : Session Priv Key) : Option Key :=
  if session.established then session.sessionKey else none

inductive Transport where
  | websocket
  | webrtc
deriving DecidableEq

inductive TransportMode where
  | websocket
  | webrtc
  | auto
deriving DecidableEq

/-- What the signalling task in progress waits for, with the public key it will use then. -/
inductive Task (Pub : Type) where
  | idle
  | connecting (pub : Pub)
  | offering (pub : Pub)
  | answering (pub : Pub)
  | applying (pub : Pub)

/-- One side's record of the other. -/
structure Node (Priv Pub Key : Type) where
  session : Option (Session Priv Key)
  pending : Bool
  established : Bool
  transports : List Transport
  task : Task Pub

inductive Signal (Pub : Type) where
  | offer (ephemeralPubKey : Pub)
  | answer (ephemeralPubKey : Pub)
  | sessionKey (ephemeralPubKey : Pub)
  | sessionKeyAck (ephemeralPubKey : Pub)

/-- How a side is set up: its transport mode, whether a data server is known, and whether its
id is greater than the other side's. -/
structure SideConfig where
  transportMode : TransportMode
  dataServer : Bool
  idGreater : Bool

def SideConfig.shouldTryWebSocket (config : SideConfig) : Bool :=
  (config.transportMode == .websocket || config.transportMode == .auto) && config.dataServer

namespace Node

variable {Priv Pub Secret Key : Type} (kx : KeyExchange Priv Pub Secret Key)

def init : Node Priv Pub Key := ⟨none, false, false, [], .idle⟩

def createSession (node : Node Priv Pub Key) (priv : Priv) : Node Priv Pub Key :=
  { node with session := some ⟨priv, none, false⟩ }

/-- Completes whatever session is there; without one the code throws. -/
def completeSession (node : Node Priv Pub Key) (peerPublicKey : Pub) : Option (Node Priv Pub Key) :=
  node.session.map fun session => { node with session := some (session.complete kx peerPublicKey) }

def getSessionKey (node : Node Priv Pub Key) : Option Key := node.session.bind Session.key

/-- The session goes together with both marks of the peer. -/
def forget (node : Node Priv Pub Key) : Node Priv Pub Key :=
  { node with session := none, pending := false, established := false }

end Node

inductive Side where
  | left
  | right
deriving DecidableEq

def Side.other : Side → Side
  | .left => .right
  | .right => .left

structure Config (Priv Pub Secret Key : Type) where
  kx : KeyExchange Priv Pub Secret Key
  -- the private keys in the order in which they are drawn, by either side
  randomKey : Nat → Priv
  side : Side → SideConfig

/-- Both nodes, the signals that each has sent and the other not yet taken, and how many keys
were drawn. -/
structure Network (Priv Pub Key : Type) where
  node : Side → Node Priv Pub Key
  sent : Side → List (Signal Pub)
  draws : Nat

inductive Event where
  | initiate
  | peerJoin (stale : Bool)
  | wsConnected
  | wsFailed
  | offerCreated
  | offerFailed
  | receive
  | offerAnswered
  | offerRefused
  | answerApplied
  | answerRefused
  | peerConnected (transport : Transport)
  | peerDisconnected
  | peerLeft
deriving DecidableEq

namespace Network

variable {Priv Pub Secret Key : Type} (config : Config Priv Pub Secret Key)

def init : Network Priv Pub Key := ⟨fun _ => .init, fun _ => [], 0⟩

def setNode (net : Network Priv Pub Key) (side : Side) (node : Node Priv Pub Key) :
    Network Priv Pub Key :=
  { net with node := Function.update net.node side node }

def sendSignal (net : Network Priv Pub Key) (side : Side) (signal : Signal Pub) :
    Network Priv Pub Key :=
  { net with sent := Function.update net.sent side (net.sent side ++ [signal]) }

/-- The first signal from the other side is taken. -/
def take (net : Network Priv Pub Key) (side : Side) (rest : List (Signal Pub)) :
    Network Priv Pub Key :=
  { net with sent := Function.update net.sent side.other rest }

/-- A new ephemeral key: the node with its session, and the public part. -/
def drawn (net : Network Priv Pub Key) (side : Side) : Node Priv Pub Key × Pub :=
  ((net.node side).createSession (config.randomKey net.draws),
    config.kx.getPublicKey (config.randomKey net.draws))

def initiateConnection (net : Network Priv Pub Key) (side : Side) : Network Priv Pub Key :=
  let node := net.node side
  if node.pending || node.established then net
  else if !(config.side side).shouldTryWebSocket && (config.side side).idGreater then net
  else
    let (created, pub) := net.drawn config side
    let task := if (config.side side).shouldTryWebSocket then Task.connecting pub else .offering pub
    { net.setNode side { created with pending := true, task := task } with draws := net.draws + 1 }

/-- A pending handshake that is too old is given up before the connection is initiated again;
the transport is closed with it. -/
def peerJoin (net : Network Priv Pub Key) (side : Side) (stale : Bool) : Network Priv Pub Key :=
  let node := net.node side
  let superseded :=
    if !node.established && node.pending && stale then
      net.setNode side { node.forget with transports := [] }
    else net
  superseded.initiateConnection config side

def handleSessionKey (net : Network Priv Pub Key) (side : Side) (theirs : Pub) :
    Network Priv Pub Key :=
  let (created, pub) := net.drawn config side
  let completed := (created.completeSession config.kx theirs).getD created
  { (net.setNode side completed).sendSignal side (.sessionKeyAck pub) with draws := net.draws + 1 }

/-- Without a session the error goes to the work chain, which reports it and goes on. -/
def handleSessionKeyAck (net : Network Priv Pub Key) (side : Side) (theirs : Pub) :
    Network Priv Pub Key :=
  match (net.node side).completeSession config.kx theirs with
  | some completed => net.setNode side completed
  | none => net

def handleOffer (net : Network Priv Pub Key) (side : Side) (theirs : Pub) : Network Priv Pub Key :=
  if .websocket ∈ (net.node side).transports then net
  else
    let (created, pub) := net.drawn config side
    let completed := (created.completeSession config.kx theirs).getD created
    { net.setNode side { completed with pending := true, task := .answering pub } with
      draws := net.draws + 1 }

def handleSignal (net : Network Priv Pub Key) (side : Side) : Signal Pub → Network Priv Pub Key
  | .offer theirs => net.handleOffer config side theirs
  | .answer theirs => net.setNode side { net.node side with task := .applying theirs }
  | .sessionKey theirs => net.handleSessionKey config side theirs
  | .sessionKeyAck theirs => net.handleSessionKeyAck config side theirs

/-- The end of an answer's handling; an error takes the pending mark away. -/
def applyAnswer (net : Network Priv Pub Key) (side : Side) (theirs : Pub) : Network Priv Pub Key :=
  let node := { net.node side with task := .idle }
  match node.completeSession config.kx theirs with
  | some completed => net.setNode side completed
  | none => net.setNode side { node with pending := false }

/-- One event on one side; an event that cannot happen there changes nothing. -/
def step (net : Network Priv Pub Key) (side : Side) (event : Event) : Network Priv Pub Key :=
  let node := net.node side
  match event, node.task with
  | .initiate, .idle => net.initiateConnection config side
  | .peerJoin stale, .idle => net.peerJoin config side stale
  | .wsConnected, .connecting pub =>
    (net.setNode side { node with task := .idle }).sendSignal side (.sessionKey pub)
  | .wsFailed, .connecting pub =>
    if (config.side side).transportMode = .websocket then
      net.setNode side { node with task := .idle, pending := false }
    else net.setNode side { node with task := .offering pub }
  | .offerCreated, .offering pub =>
    (net.setNode side { node with task := .idle }).sendSignal side (.offer pub)
  | .offerFailed, .offering _ => net.setNode side { node with task := .idle, pending := false }
  | .receive, .idle =>
    match net.sent side.other with
    | [] => net
    | signal :: rest => (net.take side rest).handleSignal config side signal
  | .offerAnswered, .answering pub =>
    (net.setNode side { node with task := .idle }).sendSignal side (.answer pub)
  | .offerRefused, .answering _ => net.setNode side { node with task := .idle, pending := false }
  | .answerApplied, .applying theirs => net.applyAnswer config side theirs
  | .answerRefused, .applying _ => net.setNode side { node with task := .idle, pending := false }
  | .peerConnected transport, _ =>
    net.setNode side { node with
      transports := transport :: node.transports, established := true, pending := false }
  | .peerDisconnected, _ => net.setNode side { node.forget with transports := [] }
  | .peerLeft, _ => if node.transports = [] then net.setNode side node.forget else net
  | _, _ => net

def run (net : Network Priv Pub Key) (events : List (Side × Event)) : Network Priv Pub Key :=
  events.foldl (fun net event => net.step config event.1 event.2) net

end Network

end Meshpn.Control

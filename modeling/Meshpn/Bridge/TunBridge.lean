import Meshpn.Bridge.StreamFramer
import Mathlib.Logic.Function.Basic

/-!
One bridge between the TUN device and a wire. The wire's endpoint comes from the
caller, from a lazy connect or from a reconnect; it goes when it is idle, when
its peer closes it, or when another one takes its place. The handlers of the
endpoints read the bridge's own variables, and an event of any endpoint that
still has handlers is served.

Endpoints are numbered. What their owners and the platform do to them comes in
as events, and so do the answers of the caller's filters. That activity always
counts is the one thing simplified: the idle timer may then fire more often.
Keep-alive probes, traces and the texts of the log are left out.
-/

namespace Meshpn.Bridge

open Meshpn.Lib

inductive Transport where
  | tcp
  | websocket
  | udpClient
  | udpServer
  | webrtcDc
deriving DecidableEq

inductive WireRole where
  | client
  | server
deriving DecidableEq

structure BridgeConfig where
  transport : Transport
  keepAlive : Bool
  lazyConnect : Bool
  cooldownMs : Nat
  tcpWireRole : WireRole
  softKeepAliveIdle : Bool
  softKeepAliveIdleKeepsWire : Bool
  -- which packets of the wire may go into the TUN
  tunAllows : Bytes → Bool

/-- What the bridge can see of an endpoint. `ended` is `writableEnded`, which says that `end`
was called; `closed` says that `close` was called; `gone` that it has raised its last event. -/
structure Endpoint where
  destroyed : Bool
  readableEnded : Bool
  ended : Bool
  unwritable : Bool
  finUnsafe : Bool
  closed : Bool
  peer : Bool
  gone : Bool
deriving DecidableEq

def Endpoint.fresh : Endpoint := ⟨false, false, false, false, false, false, false, false⟩

/-- One of the operations that release an endpoint was invoked on it. -/
def Endpoint.released (endpoint : Endpoint) : Bool :=
  endpoint.destroyed || endpoint.ended || endpoint.closed

def keepaliveTunQueueMax : Nat := 256

/-- The variables of the bridge, the handlers on the endpoints, and what was written.
`wireOn` lists the endpoints with the handlers of a wire and `wireOff` the one that the
closure of that name takes them off; `drainOn` has the handlers of an idle socket. -/
structure TunBridge where
  ep : Option Nat
  wireArmed : Bool
  connecting : Bool
  teardownBusy : Bool
  tunQueue : List Bytes
  idleTimer : Bool
  idleCooldownUntilMs : Nat
  wireOff : Option Nat
  wireOn : List Nat
  drainOn : Option Nat
  tcpFramedSend : Option Nat
  framer : StreamFramer
  dcQueue : List Bytes
  dcPumpScheduled : Bool
  pumps : Nat
  -- a lazy connect that has not settled, and a graceful close that is awaited
  lazyPending : Bool
  endpoints : Nat → Endpoint
  handed : List Nat
  tunWrites : List Bytes
  sent : List (Nat × Bytes)

namespace TunBridge

def modify (bridge : TunBridge) (e : Nat) (change : Endpoint → Endpoint) : TunBridge :=
  { bridge with endpoints := Function.update bridge.endpoints e (change (bridge.endpoints e)) }

def resetTcpEndpoint (bridge : TunBridge) : Option Nat → TunBridge
  | none => bridge
  | some sock =>
    if (bridge.endpoints sock).destroyed then bridge
    else bridge.modify sock fun endpoint => { endpoint with destroyed := true }

def respondFinTcpEndpoint (bridge : TunBridge) : Option Nat → TunBridge
  | none => bridge
  | some sock =>
    if (bridge.endpoints sock).destroyed then bridge
    else if (bridge.endpoints sock).finUnsafe then bridge.resetTcpEndpoint (some sock)
    else if (bridge.endpoints sock).ended then bridge
    else bridge.modify sock fun endpoint => { endpoint with ended := true }

/-- The start of a graceful close; its timeout comes in as a change of the socket. -/
def gracefulCloseTcpEndpoint (bridge : TunBridge) (sock : Nat) : TunBridge :=
  if (bridge.endpoints sock).destroyed then bridge
  else if (bridge.endpoints sock).finUnsafe then bridge.resetTcpEndpoint (some sock)
  else if (bridge.endpoints sock).ended then bridge.resetTcpEndpoint (some sock)
  else bridge.modify sock fun endpoint => { endpoint with ended := true }

/-- The socket is at its end in one direction at least. -/
def halfClosed (bridge : TunBridge) (sock : Nat) : Bool :=
  (bridge.endpoints sock).readableEnded || (bridge.endpoints sock).ended ||
    (bridge.endpoints sock).unwritable

section Wire

variable (config : BridgeConfig)

def bumpActivity (bridge : TunBridge) : TunBridge :=
  if config.keepAlive then { bridge with idleTimer := true } else bridge

def cancelTimers (bridge : TunBridge) : TunBridge := { bridge with idleTimer := false }

/-- Calls `wireOff` and forgets it. A data channel keeps its handlers; a UDP server looks for
them on the endpoint that is current by now. -/
def detachWire (bridge : TunBridge) : TunBridge :=
  match bridge.wireOff with
  | none => bridge
  | some e =>
    if config.transport = .webrtcDc ∨ (config.transport = .udpServer ∧ bridge.ep ≠ some e) then
      { bridge with wireOff := none }
    else { bridge with wireOff := none, wireOn := bridge.wireOn.erase e }

def attachWireHandlers (bridge : TunBridge) : TunBridge :=
  let detached := bridge.detachWire config
  match detached.ep with
  | none => detached
  | some e => { detached with wireOff := some e, wireOn := detached.wireOn ++ [e] }

def tcpIdleDrainOff (bridge : TunBridge) : TunBridge := { bridge with drainOn := none }

def attachTcpIdleDrainHandlers (bridge : TunBridge) (sock : Nat) : TunBridge :=
  { bridge.tcpIdleDrainOff with drainOn := some sock }

def clearTcpEndpointRef (bridge : TunBridge) (sock : Nat) : TunBridge :=
  if bridge.ep = some sock then { bridge with ep := none, tcpFramedSend := none } else bridge

def writeTun (bridge : TunBridge) (pkt : Bytes) : TunBridge :=
  if config.tunAllows pkt then { bridge with tunWrites := bridge.tunWrites ++ [pkt] } else bridge

def startCooldown (bridge : TunBridge) (now : Nat) : TunBridge :=
  if 0 < config.cooldownMs ∧ config.lazyConnect = true then
    { bridge with idleCooldownUntilMs := now + config.cooldownMs }
  else bridge

def sendOnWire (bridge : TunBridge) (pkt : Bytes) : TunBridge :=
  match bridge.wireArmed, bridge.ep with
  | true, some e =>
    match config.transport with
    | .udpServer =>
      if !(bridge.endpoints e).peer then bridge
      else if pkt.length > 65507 then bridge.bumpActivity config
      else { bridge.bumpActivity config with sent := bridge.sent ++ [(e, pkt)] }
    | .websocket | .udpClient =>
      { bridge.bumpActivity config with sent := bridge.sent ++ [(e, pkt)] }
    | .tcp =>
      let writer := bridge.tcpFramedSend.getD e
      { bridge.bumpActivity config with
        tcpFramedSend := some writer
        sent := bridge.sent ++ [(writer, pkt)] }
    | .webrtcDc =>
      let queued := { bridge.bumpActivity config with dcQueue := bridge.dcQueue ++ [pkt] }
      if bridge.dcPumpScheduled then queued
      else { queued with dcPumpScheduled := true, pumps := bridge.pumps + 1 }
  | _, _ => bridge

def sendAll (bridge : TunBridge) (pkts : List Bytes) : TunBridge :=
  pkts.foldl (sendOnWire config) bridge

/-- One run of the data channel's pump: it sends at most `room` packets, and where packets are
left it ends because the channel is not open, or comes again because its buffer is full. -/
def pumpDcQueue (bridge : TunBridge) (room : Nat) (isOpen : Bool) : TunBridge :=
  let called := { bridge with dcPumpScheduled := false, pumps := bridge.pumps - 1 }
  match config.transport, bridge.wireArmed, bridge.ep with
  | .webrtcDc, true, some e =>
    let out := bridge.dcQueue.take room
    let pumped : TunBridge := { (if out = [] then called else called.bumpActivity config) with
      dcQueue := bridge.dcQueue.drop room
      sent := bridge.sent ++ out.map fun pkt => (e, pkt) }
    if pumped.dcQueue = [] ∨ isOpen = false then pumped
    else { pumped with dcPumpScheduled := true, pumps := pumped.pumps + 1 }
  | _, _, _ => called

inductive Reason where
  | idle
  | peerClose
  | peerReset
  | peerError
  | webrtcDcClose
deriving DecidableEq

def tcpClientIdleDisarm (bridge : TunBridge) (now : Nat) : TunBridge :=
  if bridge.teardownBusy then bridge
  else if bridge.wireArmed = false ∧ bridge.ep = none then bridge
  else
    let disarmed := { (bridge.cancelTimers.detachWire config) with
      wireArmed := false
      tunQueue := [] }
    let cooled := disarmed.startCooldown config now
    match cooled.ep with
    | some sock =>
      if (cooled.endpoints sock).destroyed then cooled else cooled.attachTcpIdleDrainHandlers sock
    | none => cooled

/-- Until the socket has closed, or was not there to be closed, the bridge stays busy. -/
def tcpServerIdleGracefulClose (bridge : TunBridge) (now : Nat) : TunBridge :=
  if bridge.teardownBusy then bridge
  else
    let disarmed := { (bridge.cancelTimers.detachWire config) with
      wireArmed := false
      tunQueue := []
      dcQueue := []
      dcPumpScheduled := false }
    let cooled := { disarmed.startCooldown config now with ep := none, tcpFramedSend := none }
    match bridge.ep with
    | some sock =>
      if (bridge.endpoints sock).destroyed then cooled
      else { cooled.gracefulCloseTcpEndpoint sock with teardownBusy := true }
    | none => cooled

/-- The part of `teardownWire` that all transports share. The endpoint is closed through the
variable that was cleared just before, except for a TCP socket. -/
def tearDown (bridge : TunBridge) (reason : Reason) (now : Nat) : TunBridge :=
  if bridge.teardownBusy then bridge
  else if bridge.wireArmed = false ∧ bridge.ep = none ∧ bridge.connecting = false then
    { bridge with tunQueue := [] }
  else
    let disarmed := { (bridge.cancelTimers.detachWire config) with
      wireArmed := false
      tunQueue := []
      dcQueue := []
      dcPumpScheduled := false }
    let cooled := if reason = .idle then disarmed.startCooldown config now else disarmed
    let cleared := { cooled with ep := none, tcpFramedSend := none }.tcpIdleDrainOff
    if config.transport = .tcp then
      if reason = .peerClose then cleared.respondFinTcpEndpoint bridge.ep
      else cleared.resetTcpEndpoint bridge.ep
    else cleared

def teardownWire (bridge : TunBridge) (reason : Reason) (now : Nat) : TunBridge :=
  match config.transport, reason, bridge.ep with
  | .udpServer, .idle, some e =>
    if (bridge.endpoints e).peer then
      bridge.cancelTimers.modify e fun endpoint => { endpoint with peer := false }
    else bridge.cancelTimers
  | .tcp, .idle, _ =>
    if config.keepAlive && !config.softKeepAliveIdle then
      match config.tcpWireRole with
      | .client => bridge.tcpClientIdleDisarm config now
      | .server => bridge.tcpServerIdleGracefulClose config now
    else bridge.tearDown config reason now
  | _, _, _ => bridge.tearDown config reason now

def softTeardownWire (bridge : TunBridge) (now : Nat) : TunBridge :=
  if bridge.teardownBusy then bridge
  else if bridge.wireArmed = false ∧ bridge.connecting = false then { bridge with tunQueue := [] }
  else
    { bridge.cancelTimers with
      wireArmed := bridge.wireArmed && config.softKeepAliveIdleKeepsWire
      tunQueue := [] }.startCooldown config now

def handleTcpWireFailure (bridge : TunBridge) (resetLike : Bool) (now : Nat) : TunBridge :=
  if bridge.wireArmed then
    bridge.teardownWire config (if resetLike then .peerReset else .peerError) now
  else
    match bridge.ep with
    | none => bridge
    | some sock => (bridge.tcpIdleDrainOff.clearTcpEndpointRef sock).resetTcpEndpoint (some sock)

/-- Whether an idle TCP socket would be used again, and what is left of it if not. The refused
socket is reset through the variable that was cleared just before. -/
def rearmTcpClientWire (bridge : TunBridge) : Bool × TunBridge :=
  match bridge.ep with
  | some sock =>
    if bridge.wireArmed ∨ bridge.connecting ∨ config.transport ≠ .tcp ∨
        (bridge.endpoints sock).destroyed ∨ config.tcpWireRole ≠ .client then (false, bridge)
    else if bridge.halfClosed sock then (false, bridge.tcpIdleDrainOff.clearTcpEndpointRef sock)
    else
      (true, { bridge.tcpIdleDrainOff.attachWireHandlers config with
        wireArmed := true }.bumpActivity config)
  | none => (false, bridge)

def closeBridgeEndpoint (bridge : TunBridge) : Option Nat → TunBridge
  | none => bridge
  | some prev =>
    if (bridge.endpoints prev).destroyed then bridge
    else
      match config.transport with
      | .tcp =>
        if bridge.halfClosed prev then bridge.resetTcpEndpoint (some prev)
        else if config.tcpWireRole = .server then bridge.gracefulCloseTcpEndpoint prev
        else bridge.respondFinTcpEndpoint (some prev)
      | .websocket | .udpClient | .webrtcDc =>
        bridge.modify prev fun endpoint => { endpoint with closed := true }
      | .udpServer => bridge

/-- The packets that waited go to the wire. -/
def flushTunQueue (bridge : TunBridge) : TunBridge :=
  { bridge with tunQueue := [] }.sendAll config bridge.tunQueue

def reconnectWire (bridge : TunBridge) (newEp : Nat) : TunBridge :=
  let given := { bridge with handed := bridge.handed ++ [newEp] }
  if bridge.connecting then given
  else
    let replaced := { (given.cancelTimers.detachWire config) with
      ep := some newEp
      wireArmed := true
      dcQueue := []
      dcPumpScheduled := false
      tcpFramedSend := none
      framer := .init }
    let armed := (replaced.attachWireHandlers config).bumpActivity config
    (armed.closeBridgeEndpoint config bridge.ep).flushTunQueue config

def ensureWire (bridge : TunBridge) : TunBridge :=
  if bridge.wireArmed ∨ bridge.connecting then bridge
  else
    match bridge.rearmTcpClientWire config with
    | (true, armed) => armed.flushTunQueue config
    | (false, kept) =>
      if config.lazyConnect then { kept with connecting := true, lazyPending := true } else kept

/-- The lazy connect has given an endpoint. -/
def connected (bridge : TunBridge) (newEp : Nat) : TunBridge :=
  let given := { bridge with handed := bridge.handed ++ [newEp] }
  let armed :=
    if bridge.ep = some newEp then { given with wireArmed := true }
    else
      { given.tcpIdleDrainOff with
        tcpFramedSend := none
        ep := some newEp
        wireArmed := true
        framer := .init }.attachWireHandlers config
  { (armed.bumpActivity config).flushTunQueue config with
    connecting := false, lazyPending := false }

def connectFailed (bridge : TunBridge) : TunBridge :=
  { bridge with
    wireArmed := false, ep := none, tcpFramedSend := none, connecting := false
    lazyPending := false }

/-- A packet with the answers to the questions that are asked about it: the echo reply that the
bridge gives itself, whether it may go over the wire, whether it is worth a connect, and
whether the far end is ready for it. -/
structure TunPacket where
  pkt : Bytes
  reply : Option Bytes
  bridgeable : Bool
  lazyConnectFilter : Bool
  tunOutboundSendIf : Bool

/-- Packets wait in order; a full queue loses its oldest one. -/
def enqueue (bridge : TunBridge) (pkt : Bytes) : TunBridge :=
  let kept := if bridge.tunQueue.length ≥ keepaliveTunQueueMax then bridge.tunQueue.tail
    else bridge.tunQueue
  { bridge with tunQueue := kept ++ [pkt] }

def onTunPacket (bridge : TunBridge) (now : Nat) (packet : TunPacket) : TunBridge :=
  if packet.pkt = [] ∨ packet.pkt.length > maxPkt then bridge
  else
    match packet.reply with
    | some reply => bridge.writeTun config reply
    | none =>
      if !packet.bridgeable then bridge
      else if !bridge.wireArmed && config.lazyConnect then
        if now < bridge.idleCooldownUntilMs ∨ packet.lazyConnectFilter = false then bridge
        else
          match bridge.rearmTcpClientWire config with
          | (true, armed) =>
            if packet.tunOutboundSendIf then armed.sendOnWire config packet.pkt else armed
          | (false, kept) => (kept.enqueue packet.pkt).ensureWire config
      else if !bridge.wireArmed || !packet.tunOutboundSendIf then bridge
      else bridge.sendOnWire config packet.pkt

inductive EndpointEvent where
  | data (chunk : Bytes)
  | message (msg : Bytes)
  | finished
  | close
  | error (resetLike : Bool)
  | writeError (resetLike : Bool)

def writeAll (bridge : TunBridge) (pkts : List Bytes) : TunBridge :=
  pkts.foldl (writeTun config) bridge

/-- The framer takes a chunk; a bad frame resets the socket it came from. -/
def onData (bridge : TunBridge) (sock : Nat) (chunk : Bytes) : TunBridge :=
  let pushed := bridge.framer.push chunk
  let written := { bridge.bumpActivity config with framer := pushed.framer }.writeAll config
    pushed.packets
  match pushed.fault with
  | none => written
  | some _ => written.resetTcpEndpoint (some sock)

/-- A UDP server takes the sender of the datagram as the peer of the current endpoint. -/
def onDatagram (bridge : TunBridge) (msg : Bytes) : TunBridge :=
  if msg = [] ∨ msg.length > maxPkt then bridge
  else
    match config.transport, bridge.ep with
    | .udpServer, none => bridge
    | .udpServer, some e =>
      ((bridge.modify e fun endpoint => { endpoint with peer := true }).bumpActivity
        config).writeTun config msg
    | _, _ => (bridge.bumpActivity config).writeTun config msg

/-- The handlers that `attachWireHandlers` puts on an endpoint. -/
def onWireEvent (bridge : TunBridge) (e now : Nat) : EndpointEvent → TunBridge
  | .data chunk => if config.transport = .tcp then bridge.onData config e chunk else bridge
  | .message msg =>
    match config.transport with
    | .tcp => bridge
    | .websocket => (bridge.bumpActivity config).writeTun config msg
    | .udpClient | .udpServer | .webrtcDc => bridge.onDatagram config msg
  | .finished =>
    if config.transport = .tcp ∧ bridge.wireArmed = true then
      bridge.teardownWire config .peerClose now
    else bridge
  | .close =>
    match config.transport with
    | .tcp =>
      if bridge.wireArmed then bridge.tcpIdleDrainOff.teardownWire config .peerClose now
      else bridge.tcpIdleDrainOff.clearTcpEndpointRef e
    | .websocket | .udpClient =>
      if bridge.wireArmed then bridge.teardownWire config .peerClose now else bridge
    | .webrtcDc =>
      if bridge.wireArmed then bridge.teardownWire config .webrtcDcClose now else bridge
    | .udpServer => bridge
  | .error resetLike =>
    match config.transport with
    | .tcp => bridge.handleTcpWireFailure config resetLike now
    | .websocket | .udpClient =>
      if bridge.wireArmed then bridge.teardownWire config .peerError now else bridge
    | .webrtcDc | .udpServer => bridge
  | .writeError _ => bridge

/-- The handlers of an idle TCP socket that waits for the end of its peer. -/
def onDrainEvent (bridge : TunBridge) (e now : Nat) : EndpointEvent → TunBridge
  | .data _ => (bridge.tcpIdleDrainOff.clearTcpEndpointRef e).resetTcpEndpoint (some e)
  | .finished => bridge.respondFinTcpEndpoint (some e)
  | .close => bridge.tcpIdleDrainOff.clearTcpEndpointRef e
  | .error resetLike => bridge.handleTcpWireFailure config resetLike now
  | .message _ | .writeError _ => bridge

/-- What an endpoint is after an event: a socket that has closed is destroyed, and nothing
comes after the close. -/
def noteEvent (bridge : TunBridge) (e : Nat) : EndpointEvent → TunBridge
  | .close =>
    bridge.modify e fun endpoint => { endpoint with
      gone := true
      destroyed := endpoint.destroyed || config.transport == .tcp }
  | .finished => bridge.modify e fun endpoint => { endpoint with readableEnded := true }
  | .data _ | .message _ | .error _ | .writeError _ => bridge

/-- A destroyed socket has no more data and no more end, and a closed one nothing at all. -/
def canRaise (bridge : TunBridge) (e : Nat) : EndpointEvent → Bool
  | .data _ | .finished => !(bridge.endpoints e).gone && !(bridge.endpoints e).destroyed
  | .message _ | .close | .error _ | .writeError _ => !(bridge.endpoints e).gone

/-- An event of an endpoint reaches the handlers that it has. The writer's callback is the one
that asks whether its endpoint is still the current one. -/
def onEndpointEvent (bridge : TunBridge) (e now : Nat) (event : EndpointEvent) : TunBridge :=
  if !bridge.canRaise e event then bridge
  else
    let noted := bridge.noteEvent config e event
    match event with
    | .writeError resetLike =>
      if config.transport = .tcp ∧ bridge.ep = some e then
        noted.handleTcpWireFailure config resetLike now
      else noted
    | _ =>
      let wired := if e ∈ bridge.wireOn then noted.onWireEvent config e now event else noted
      if bridge.drainOn = some e then wired.onDrainEvent config e now event else wired

end Wire

inductive BridgeEvent where
  | tun (now : Nat) (packet : TunPacket)
  | idle (now : Nat)
  | ensureWire
  | connected (newEp : Nat)
  | connectFailed
  | reconnectWire (newEp : Nat)
  | pump (room : Nat) (isOpen : Bool)
  | gracefulClosed
  | endpoint (e now : Nat) (event : EndpointEvent)
  -- the platform or the owner changes a socket
  | socket (e : Nat) (destroyed readableEnded ended unwritable : Bool)

variable (config : BridgeConfig)

/-- Without a lazy connect the bridge starts with its endpoint, armed. -/
def init (endpoint : Nat) (endpoints : Nat → Endpoint) : TunBridge :=
  let idle : TunBridge := {
    ep := none, wireArmed := false, connecting := false, teardownBusy := false
    tunQueue := [], idleTimer := false, idleCooldownUntilMs := 0
    wireOff := none, wireOn := [], drainOn := none, tcpFramedSend := none, framer := .init
    dcQueue := [], dcPumpScheduled := false, pumps := 0, lazyPending := false
    endpoints := endpoints, handed := [], tunWrites := [], sent := [] }
  if config.lazyConnect then idle
  else
    ({ idle with ep := some endpoint, wireArmed := true, handed := [endpoint] }.attachWireHandlers
      config).bumpActivity config

/-- One event; what was not scheduled does not happen. A lazy connect does not give back a
destroyed endpoint, and a connection that comes in brings an endpoint of its own. -/
def step (bridge : TunBridge) : BridgeEvent → TunBridge
  | .tun now packet => bridge.onTunPacket config now packet
  | .idle now =>
    if bridge.idleTimer then
      let fired := { bridge with idleTimer := false }
      if config.softKeepAliveIdle then fired.softTeardownWire config now
      else fired.teardownWire config .idle now
    else bridge
  | .ensureWire => bridge.ensureWire config
  | .connected newEp =>
    if bridge.lazyPending && !(bridge.endpoints newEp).destroyed then bridge.connected config newEp
    else bridge
  | .connectFailed => if bridge.lazyPending then bridge.connectFailed else bridge
  | .reconnectWire newEp =>
    if newEp ∈ bridge.handed then bridge else bridge.reconnectWire config newEp
  | .pump room isOpen => if bridge.pumps = 0 then bridge else bridge.pumpDcQueue config room isOpen
  | .gracefulClosed => { bridge with teardownBusy := false }
  | .endpoint e now event => bridge.onEndpointEvent config e now event
  | .socket e destroyed readableEnded ended unwritable =>
    bridge.modify e fun endpoint => { endpoint with
      destroyed := endpoint.destroyed || destroyed
      readableEnded := endpoint.readableEnded || readableEnded
      ended := endpoint.ended || ended
      unwritable := endpoint.unwritable || unwritable }

def run (bridge : TunBridge) (events : List BridgeEvent) : TunBridge :=
  events.foldl (step config) bridge

end TunBridge

end Meshpn.Bridge

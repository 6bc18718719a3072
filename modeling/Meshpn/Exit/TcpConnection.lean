import Meshpn.Lib.Bytes

/-!
One TCP connection of the user-space NAT, as `_handleTCP` and the handlers of its
upstream socket move it. A client's segments come out of the mesh; the stream
they carry is written to a real socket, and what the socket reads goes back as
segments the NAT makes up, paced by a count of segments in flight.

The connection keeps two logs, of the packets sent to the client and of the calls
made on the socket. A packet is modelled by its sequence and acknowledgement
numbers as they are on the wire, its flags and its data; a log entry also has the
count in flight and its limit at the moment the packet was built. Addresses,
ports, options and checksums of the packet are left out.
-/

namespace Meshpn.Exit.Tcp

open Meshpn.Lib

inductive TcpState where
  | connecting | established | finWait | closed
  deriving DecidableEq, Repr

/-- A segment of the client, parsed. `wscale` is read from the options of a SYN. -/
structure Segment where
  tcpSeq : Nat
  tcpAck : Nat
  tcpWindow : Nat
  syn : Bool
  ack : Bool
  fin : Bool
  rst : Bool
  wscale : Option Nat
  data : Bytes
  deriving DecidableEq, Repr

inductive Flag where
  | syn | ack | fin | rst | psh
  deriving DecidableEq, Repr

structure Packet where
  seq : Nat
  ack : Nat
  flags : List Flag
  data : Bytes
  pending : Nat
  limit : Nat
  deriving DecidableEq, Repr

inductive SocketCall where
  | write (data : Bytes)
  | finish
  | destroy
  | pause
  | resume
  deriving DecidableEq, Repr

structure Config where
  tcpMaxPending : Nat
  connectionTimeout : Nat
  maxConnections : Nat
  /-- `Math.floor(maxP * 0.35)`, in floating point. -/
  fraction : Nat → Nat

structure Conn where
  state : TcpState
  clientSeq : Nat
  clientAck : Nat
  serverSeq : Nat
  /-- Whether `conn.socket` is set. -/
  socket : Bool
  pendingData : List Bytes
  lastActivity : Nat
  pendingResponses : Nat
  peerWindowScaleShift : Nat
  peerRecvWindow : Nat
  lastPeerAck : Option Nat
  serverSocketPaused : Bool
  /-- Empty where the source has `null`. -/
  serverReadBacklog : Bytes
  eofFromServer : Bool
  finSent : Bool
  clientFinSeen : Bool
  clientFinSeq : Option Nat
  socketEndedToServer : Bool
  lingerCloseTimer : Bool
  sent : List Packet
  calls : List SocketCall
  deriving DecidableEq, Repr

/-- Numbers on the wire have 32 bits. -/
def word : Nat := 4294967296

def mss : Nat := 1360

/-- The connection a SYN makes, with a random first sequence number. -/
def Conn.init (segment : Segment) (serverSeq now : Nat) : Conn where
  state := .connecting
  clientSeq := segment.tcpSeq
  clientAck := 0
  serverSeq := serverSeq
  socket := true
  pendingData := []
  lastActivity := now
  pendingResponses := 0
  peerWindowScaleShift := if (segment.wscale.getD 15) ≤ 14 then segment.wscale.getD 0 else 0
  peerRecvWindow := segment.tcpWindow
  lastPeerAck := none
  serverSocketPaused := false
  serverReadBacklog := []
  eofFromServer := false
  finSent := false
  clientFinSeen := false
  clientFinSeq := none
  socketEndedToServer := false
  lingerCloseTimer := false
  sent := []
  calls := []

namespace Conn

def isOpen (c : Conn) : Bool := c.state == .established || c.state == .finWait

def call (c : Conn) (socketCall : SocketCall) : Conn := { c with calls := c.calls ++ [socketCall] }

def scaledPeerRecvWindow (c : Conn) : Nat :=
  if c.peerRecvWindow = 0 then 0
  else if c.peerWindowScaleShift = 0 ∨ 14 < c.peerWindowScaleShift then c.peerRecvWindow
  else min (c.peerRecvWindow <<< c.peerWindowScaleShift) 0x40000000

def maxPendingForConn (config : Config) (c : Conn) : Nat :=
  if c.scaledPeerRecvWindow = 0 then 0
  else min config.tcpMaxPending (max 6 (c.scaledPeerRecvWindow / mss + 6))

def resumePendingTarget (config : Config) (c : Conn) : Nat :=
  if c.maxPendingForConn config = 0 then 0
  else max 4 (config.fraction (c.maxPendingForConn config))

/-- `sendResponse(srcNodeId, buildTCPPacket(…, serverSeq, ack, flags, data))`. -/
def send (config : Config) (c : Conn) (ack : Nat) (flags : List Flag) (data : Bytes) : Conn :=
  { c with sent := c.sent ++
      [⟨c.serverSeq % word, ack % word, flags, data, c.pendingResponses,
        c.maxPendingForConn config⟩] }

/-- One pass of the loop of `_flushServerReadBacklog`. -/
def sendChunk (config : Config) (c : Conn) : Conn :=
  let chunk := c.serverReadBacklog.take mss
  let flags := if c.serverReadBacklog.length ≤ mss then [.psh, .ack] else [.ack]
  { c.send config c.clientAck flags chunk with
    serverSeq := c.serverSeq + chunk.length
    serverReadBacklog := c.serverReadBacklog.drop mss
    pendingResponses := c.pendingResponses + 1 }

/-- The loop, with as many passes left as there is room in flight. -/
def sendChunks (config : Config) : Nat → Conn → Conn
  | 0, c => c
  | room + 1, c =>
    if c.serverReadBacklog = [] then c else sendChunks config room (c.sendChunk config)

/-- The condition of `_maybeSendServerFin`. -/
def finDue (c : Conn) : Bool :=
  c.eofFromServer && !c.finSent && c.state == .established && c.serverReadBacklog.isEmpty &&
    c.pendingResponses == 0

/-- The FIN toward the client, which the client may go on sending after. -/
def sendServerFin (config : Config) (c : Conn) : Conn :=
  { ({ c with finSent := true, state := .finWait } : Conn).send config c.clientAck [.fin, .ack] []
    with serverSeq := c.serverSeq + 1 }

def maybeSendServerFin (config : Config) (c : Conn) : Conn :=
  if c.finDue then c.sendServerFin config else c

def flushServerReadBacklog (config : Config) (c : Conn) : Conn :=
  if c.isOpen then
    (c.sendChunks config (c.maxPendingForConn config - c.pendingResponses)).maybeSendServerFin
      config
  else c

def syncServerSocketPause (config : Config) (c : Conn) : Conn :=
  if c.socket && c.isOpen then
    let maxP := c.maxPendingForConn config
    let overInFlight := 0 < maxP && maxP ≤ c.pendingResponses
    let zeroWin := c.peerRecvWindow == 0
    let backlogStuck := !c.serverReadBacklog.isEmpty && (overInFlight || zeroWin || maxP == 0)
    let needPause := zeroWin || overInFlight || backlogStuck
    let canResume := c.serverSocketPaused && !zeroWin && 0 < maxP &&
      c.pendingResponses < c.resumePendingTarget config && c.pendingResponses < maxP &&
      !backlogStuck
    if needPause && !c.serverSocketPaused then
      { c.call .pause with serverSocketPaused := true }
    else if canResume then { c.call .resume with serverSocketPaused := false }
    else c
  else c

/-- `(ack - prev) >>> 0`. -/
def ackDelta (prev ack : Nat) : Nat := (ack + word - prev) % word

/-- How many segments an acknowledgement takes out of flight. -/
def released (c : Conn) (segment : Segment) : Nat :=
  match c.lastPeerAck with
  | none => 0
  | some prev =>
    let delta := ackDelta prev segment.tcpAck
    if 0 < delta ∧ delta < 0x80000000 then
      min c.pendingResponses (max 1 ((delta + mss - 1) / mss))
    else 0

/-- What becomes of `lastPeerAck`. -/
def peerAckAfter (c : Conn) (segment : Segment) : Option Nat :=
  match c.lastPeerAck with
  | none => some segment.tcpAck
  | some prev =>
    let delta := ackDelta prev segment.tcpAck
    if 0 < delta ∧ delta < 0x80000000 then some segment.tcpAck else some prev

/-- The window and the acknowledgement of a segment are noted. -/
def notePeer (c : Conn) (segment : Segment) : Conn :=
  if segment.ack then
    { c with
      peerRecvWindow := segment.tcpWindow
      lastPeerAck := c.peerAckAfter segment
      pendingResponses := c.pendingResponses - c.released segment }
  else { c with peerRecvWindow := segment.tcpWindow }

def updatePeerWindowAndAck (config : Config) (c : Conn) (segment : Segment) : Conn :=
  if c.isOpen then
    ((c.notePeer segment).flushServerReadBacklog config).syncServerSocketPause config
  else c

/-- The branch of `_handleTCP` for a FIN. -/
def handleFin (config : Config) (c : Conn) (segment : Segment) : Conn :=
  if c.clientFinSeen && c.clientFinSeq == some segment.tcpSeq then
    c.send config c.clientAck [.ack] []
  else
    let acked := ({ c with
      clientFinSeen := true
      clientFinSeq := some segment.tcpSeq
      clientAck := segment.tcpSeq + 1 } : Conn).send config (segment.tcpSeq + 1) [.ack] []
    if c.socket && !c.socketEndedToServer then
      { acked.call .finish with socketEndedToServer := true }
    else acked

/-- Where the data of a segment go. -/
def takeData (c : Conn) (data : Bytes) : Conn :=
  if c.state == .established && c.socket then c.call (.write data)
  else if c.state == .connecting then { c with pendingData := c.pendingData ++ [data] }
  else c

/-- `conn.clientAck = ack`. -/
def setClientAck (c : Conn) (ack : Nat) : Conn := { c with clientAck := ack }

/-- The branch of `_handleTCP` for data. -/
def handleData (config : Config) (c : Conn) (segment : Segment) : Conn :=
  if segment.data.length > 0 then
    ((c.setClientAck (segment.tcpSeq + segment.data.length)).takeData segment.data).send config
      (segment.tcpSeq + segment.data.length) [.ack] []
  else c

/-- `_closeTCPConnection`, as far as the connection goes. -/
def closeTCPConnection (c : Conn) : Conn :=
  if c.state == .closed then c
  else if c.socket then
    { c.call .destroy with state := .closed, lingerCloseTimer := false, socket := false }
  else { c with state := .closed, lingerCloseTimer := false }

/-- `conn.lastActivity = Date.now()`. -/
def activeAt (c : Conn) (now : Nat) : Conn := { c with lastActivity := now }

/-- `_handleTCP` on a connection there is, past the branches for RST and SYN. -/
def handleSegment (config : Config) (c : Conn) (now : Nat) (segment : Segment) : Conn :=
  let noted := (c.activeAt now).updatePeerWindowAndAck config segment
  if segment.ack && !segment.syn && !segment.fin && segment.data.isEmpty then noted
  else if segment.fin then noted.handleFin config segment
  else
    let taken := noted.handleData config segment
    if taken.isOpen then taken.syncServerSocketPause config else taken

/-- `_handleTCP` on a connection that is in the table and hence not closed. -/
def handleTCP (config : Config) (c : Conn) (now : Nat) (segment : Segment) : Conn :=
  if c.state == .closed then c
  else if segment.rst then c.closeTCPConnection
  else if segment.syn && !segment.ack then c
  else c.handleSegment config now segment

/-- The writes of what came before the socket was connected. -/
def writePending (c : Conn) : Conn :=
  { c with calls := c.calls ++ c.pendingData.map .write, pendingData := [] }

/-- The SYN-ACK, and the numbers that follow it. -/
def establish (config : Config) (c : Conn) (now : Nat) : Conn :=
  { ({ c with state := .established, lastActivity := now, peerRecvWindow := 65535 } : Conn).send
      config (c.clientSeq + 1) [.syn, .ack] [] with
    serverSeq := c.serverSeq + 1
    clientAck := c.clientSeq + 1 }

def onConnect (config : Config) (c : Conn) (now : Nat) : Conn :=
  if c.state == .closed then c.call .destroy else (c.establish config now).writePending

/-- What the server sent waits behind what is there. -/
def buffer (c : Conn) (now : Nat) (data : Bytes) : Conn :=
  { c with lastActivity := now, serverReadBacklog := c.serverReadBacklog ++ data }

def onData (config : Config) (c : Conn) (now : Nat) (data : Bytes) : Conn :=
  if c.state == .closed then c
  else ((c.buffer now data).flushServerReadBacklog config).syncServerSocketPause config

def noteEnd (c : Conn) : Conn := { c with eofFromServer := true }

def onEnd (config : Config) (c : Conn) : Conn :=
  if c.state == .closed then c
  else
    ((c.noteEnd.flushServerReadBacklog config).maybeSendServerFin config).syncServerSocketPause
      config

def scheduleTcpLingerClose (c : Conn) : Conn :=
  if c.lingerCloseTimer || c.state == .closed then c else { c with lingerCloseTimer := true }

/-- The end of the `error`, `timeout` and `close` handlers. -/
def lingerOrClose (c : Conn) : Conn :=
  if c.finSent then c.scheduleTcpLingerClose else c.closeTCPConnection

def onError (config : Config) (c : Conn) : Conn :=
  if c.state == .closed then c
  else if c.finSent then c.lingerOrClose
  else (c.send config c.clientAck [.rst] []).lingerOrClose

def onTimeout (c : Conn) : Conn := (c.call .destroy).lingerOrClose

def onClose (c : Conn) : Conn := if c.state == .closed then c else c.lingerOrClose

/-- The linger timer; a closed connection has been taken out of the table. -/
def onLinger (c : Conn) : Conn :=
  if c.lingerCloseTimer then ({ c with lingerCloseTimer := false } : Conn).closeTCPConnection
  else c

/-- The pass of `_cleanup` over one connection. -/
def onCleanup (config : Config) (c : Conn) (now : Nat) : Conn :=
  if config.connectionTimeout < now - c.lastActivity then c.closeTCPConnection else c

end Conn

/-- What the upstream socket and the linger timer of a connection report. -/
inductive SocketEvent where
  | connect (now : Nat)
  | data (now : Nat) (data : Bytes)
  | eof
  | error
  | timeout
  | close
  | linger
  deriving DecidableEq, Repr

def Conn.onSocket (config : Config) (c : Conn) : SocketEvent → Conn
  | .connect now => c.onConnect config now
  | .data now data => c.onData config now data
  | .eof => c.onEnd config
  | .error => c.onError config
  | .timeout => c.onTimeout
  | .close => c.onClose
  | .linger => c.onLinger

inductive Event where
  | segment (now : Nat) (segment : Segment)
  | socket (event : SocketEvent)
  | cleanup (now : Nat)
  | stop
  deriving DecidableEq, Repr

def Conn.step (config : Config) (c : Conn) : Event → Conn
  | .segment now segment => c.handleTCP config now segment
  | .socket event => c.onSocket config event
  | .cleanup now => c.onCleanup config now
  | .stop => c.closeTCPConnection

def Conn.run (config : Config) (c : Conn) (events : List Event) : Conn :=
  events.foldl (Conn.step config) c

/-! Inputs that tests share. -/

def sampleConfig : Config := ⟨200, 300000, 1, fun n => n * 35 / 100⟩

def sampleSyn : Segment := ⟨1000, 0, 64240, true, false, false, false, some 7, []⟩

end Meshpn.Exit.Tcp

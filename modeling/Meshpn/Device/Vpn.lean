import Meshpn.Lib.Ring
import Meshpn.Device.Frame

/-!
The tunnel of the device as a system of tasks. The network stack's thread applies
profiles and hands packets to the tunnel's queue; the receiving task connects,
announces a connection and takes it down; the sending task takes packets from the
queue while the connection is the one it started on, and writes them in pieces.
Every step below is one critical section of one task, so that a run is any
interleaving of the three.

What is not in the source is kept apart: each accepted packet has a number and
the connection and generation under which it was accepted, connections are
numbered, and what became of a packet is written down where a counter is.
-/

namespace Meshpn.Device

open Meshpn.Lib

/-- `MESHVPN_VPN_SLOTS`. -/
abbrev queueSlots : Nat := 256

/-- An address and a mask, the first byte the highest. -/
structure Netif where
  addr : UInt32
  mask : UInt32
deriving DecidableEq

inductive Transport where
  | tcp
  | udp
  | tls
  | wireguard
  | unknown
deriving DecidableEq

/-- The values of `last_error` that keep the receiving task from connecting, and the rest. -/
inductive ErrorCode where
  | ok
  | notSupported
  | invalidArg
  | other
deriving DecidableEq

/-- A profile: the fields that decide where packets go, and what validating it says. -/
structure Config where
  enabled : Bool
  allowDirect : Bool
  transport : Transport
  wgAddress : Option UInt32
  error : ErrorCode
deriving DecidableEq

/-- An entry of the queue, with the number, the connection and the generation that it was
accepted under. -/
structure Packet where
  data : Bytes
  time : Nat
  id : Nat
  conn : Nat
  generation : UInt32
deriving DecidableEq

/-- What became of an accepted packet; a sent one with the connection that took its last byte
and the generation which that connection was made for. -/
inductive Fate where
  | sent (conn : Nat) (generation : UInt32)
  | expired
  | flushed
  | dropped
deriving DecidableEq

structure Settled where
  packet : Packet
  fate : Fate
deriving DecidableEq

/-- A socket that is open: its descriptor, its number and the generation it was made for. -/
structure Sock where
  fd : Nat
  conn : Nat
  generation : UInt32
deriving DecidableEq

/-- `s_socket`; no descriptor is `none`. -/
structure SocketLink where
  fd : Option Nat
  generation : UInt32
  epoch : UInt32
  active : Bool
  txStopped : Bool
  datagram : Bool
deriving DecidableEq

/-- What the receiving task remembers of the status it started from. -/
structure Snapshot where
  generation : UInt32
  datagram : Bool
deriving DecidableEq

/-- Where the receiving task stands. -/
inductive RxPhase where
  | top
  | polling (generation : UInt32)
  | waitUplink (cfg : Snapshot)
  | connecting (cfg : Snapshot)
  | connected (cfg : Snapshot) (fd : Nat)
  | linking (cfg : Snapshot) (fd : Nat)
  | linked (cfg : Snapshot)
  | receiving (cfg : Snapshot)
  | stopping (cfg : Snapshot)
  | draining (cfg : Snapshot)
  | closing (cfg : Snapshot)
  | retry (cfg : Snapshot)
  | backoff (cfg : Snapshot)
deriving DecidableEq

/-- The sending task's variables while it serves a connection. The packets of the batch are
kept beside it in order. -/
structure TxRun where
  fd : Nat
  epoch : UInt32
  generation : UInt32
  datagram : Bool
  batch : TxBatch
  loaded : List Packet
  udp : Option Packet
deriving DecidableEq

/-- The packets taken from the queue and not sent to their end. -/
def TxRun.held (run : TxRun) : List Packet :=
  if run.datagram then run.udp.toList else run.loaded.drop run.batch.completed

/-- Where the sending task stands. -/
inductive TxPhase where
  | idle
  | check (run : TxRun)
  | session (run : TxRun)
  | loading (run : TxRun) (scanned : Nat)
  | sending (run : TxRun)
  | leaving (run : TxRun)
deriving DecidableEq

def TxPhase.held : TxPhase → List Packet
  | .idle => []
  | .check run | .session run | .loading run _ | .sending run | .leaving run => run.held

/-- The component: what the stack's thread sees, the status under the lock, the queue, the
counters, the link and the two tasks; then the numbers and the record kept beside them. -/
structure Vpn where
  ready : Bool
  address : UInt32
  usb : Option Netif
  ap : Option Netif
  wgActive : Bool
  transport : Transport
  enabled : Bool
  connected : Bool
  killSwitch : Bool
  generation : UInt32
  lastError : ErrorCode
  queue : Ring Packet queueSlots
  queueFull : UInt32
  queueExpired : UInt32
  txDropped : UInt32
  packetsOut : UInt32
  link : SocketLink
  sock : Option Sock
  rx : RxPhase
  tx : TxPhase
  accepted : Nat
  refused : Nat
  wgSent : Nat
  wgDropped : Nat
  conns : Nat
  settled : List Settled

namespace Vpn

/-- 10.99.0.2. -/
def tunnelAddress : UInt32 := 0x0a630002

/-- After `meshvpn_vpn_init`; a boot in which that fails goes no further. -/
def init : Vpn where
  ready := true
  address := tunnelAddress
  usb := none
  ap := none
  wgActive := false
  transport := .tcp
  enabled := false
  connected := false
  killSwitch := false
  generation := 0
  lastError := .ok
  queue := ⟨fun _ => ⟨[], 0, 0, 0, 0⟩, 0, 0, by decide, by decide⟩
  queueFull := 0
  queueExpired := 0
  txDropped := 0
  packetsOut := 0
  link := ⟨none, 0, 0, false, true, false⟩
  sock := none
  rx := .top
  tx := .idle
  accepted := 0
  refused := 0
  wgSent := 0
  wgDropped := 0
  conns := 0
  settled := []

def session (s : Vpn) (g : UInt32) : Bool := s.enabled && decide (s.generation = g)

/-- The queue is emptied and its packets are counted as dropped. -/
def flush (s : Vpn) : Vpn :=
  { s with
    txDropped := s.txDropped + UInt32.ofNat s.queue.count
    queue := s.queue.clear
    settled := s.settled ++ s.queue.toList.map fun p => ⟨p, .flushed⟩ }

/-- `state_core`, which acts for the current generation only. -/
def stateCore (s : Vpn) (g : UInt32) (up : Bool) (error : ErrorCode) : Vpn :=
  if g = s.generation then
    let s := { s with connected := up, lastError := error }
    if up then s else s.flush
  else s

def applyConfig (s : Vpn) (c : Config) : Vpn :=
  let address := if c.transport = .wireguard then c.wgAddress.getD tunnelAddress else tunnelAddress
  flush { s with
    wgActive := false
    address := address
    transport := c.transport
    enabled := c.enabled
    connected := false
    generation := s.generation + 1
    killSwitch := !c.allowDirect
    lastError := c.error }

def sendIpv4 (s : Vpn) (p : Bytes) (now : Nat) : Vpn :=
  if p.length > mtu ∨ ipv4Valid p = false then s
  else if s.connected = false then
    { s with txDropped := s.txDropped + 1, refused := s.refused + 1 }
  else if s.queue.count = queueSlots then
    { s with
      queueFull := s.queueFull + 1
      txDropped := s.txDropped + 1
      refused := s.refused + 1 }
  else
    { s with
      queue := s.queue.push ⟨p, now, s.accepted, s.conns, s.generation⟩
      accepted := s.accepted + 1 }

/-- What WireGuard answers while a packet goes out. -/
structure WgEnv where
  peerUp : Bool
  alloc : Bool
  sent : Bool
deriving DecidableEq

/-- `output` of the tunnel's interface: queued, given to WireGuard or dropped. -/
def output (s : Vpn) (p : Bytes) (now : Nat) (wg : WgEnv) : Vpn :=
  if p.length > mtu then s
  else
    match normalise p with
    | none => s
    | some buf =>
      if s.transport = .wireguard then
        if s.enabled && (s.wgActive && wg.peerUp) && wg.alloc && wg.sent then
          { s with packetsOut := s.packetsOut + 1, wgSent := s.wgSent + 1 }
        else { s with txDropped := s.txDropped + 1, wgDropped := s.wgDropped + 1 }
      else s.sendIpv4 buf now

inductive ConnectResult where
  -- before and after the state is set to connecting
  | refused
  | failed
  | opened (fd : Nat)
deriving DecidableEq

/-- What the second of WireGuard's poll finds. -/
inductive WgPoll where
  | noClock
  | noUplink
  | polled (active up : Bool) (error : ErrorCode)
deriving DecidableEq

/-- What the world answers the receiving task; it goes on if there is a mutex for the
connection, or if no read has failed. -/
structure RxChoice where
  connect : ConnectResult
  wg : WgPoll
  goesOn : Bool
  error : ErrorCode
deriving DecidableEq

/-- `wg_poll`, or the wait for a clock. -/
def wgPoll (s : Vpn) (g : UInt32) : WgPoll → Vpn
  | .noClock => s.stateCore g false .ok
  | .noUplink =>
    if s.session g ∧ s.transport = .wireguard then
      { s with wgActive := false }.stateCore g false .other
    else s
  | .polled active up error =>
    if s.session g ∧ s.transport = .wireguard then
      { s with wgActive := active }.stateCore g up error
    else s

/-- One step of the receiving task. -/
def rxStep (s : Vpn) (choice : RxChoice) : Vpn :=
  match s.rx with
  | .top =>
    if s.enabled = false ∨ s.lastError = .notSupported ∨ s.lastError = .invalidArg then s
    else if s.transport = .wireguard then { s with rx := .polling s.generation }
    else { s with rx := .waitUplink ⟨s.generation, decide (s.transport = .udp)⟩ }
  | .polling g => { s.wgPoll g choice.wg with rx := .top }
  | .waitUplink cfg => { s.stateCore cfg.generation false .ok with rx := .connecting cfg }
  | .connecting cfg =>
    match choice.connect with
    | .refused => { s with rx := .retry cfg }
    | .failed => { s.stateCore cfg.generation false .ok with rx := .retry cfg }
    | .opened fd =>
      { s.stateCore cfg.generation false .ok with
        conns := s.conns + 1
        sock := some ⟨fd, s.conns + 1, cfg.generation⟩
        rx := .connected cfg fd }
  | .connected cfg fd =>
    if s.session cfg.generation then
      if choice.goesOn then { s with rx := .linking cfg fd }
      else { s with sock := none, rx := .retry cfg }
    else { s with sock := none, rx := .top }
  | .linking cfg fd =>
    { s with
      link := ⟨some fd, cfg.generation, s.link.epoch + 1, true, false, cfg.datagram⟩
      rx := .linked cfg }
  | .linked cfg => { s.stateCore cfg.generation true .ok with rx := .receiving cfg }
  | .receiving cfg =>
    if s.session cfg.generation && choice.goesOn then s else { s with rx := .stopping cfg }
  | .stopping cfg => { s with link := { s.link with active := false }, rx := .draining cfg }
  | .draining cfg => if s.link.txStopped then { s with rx := .closing cfg } else s
  | .closing cfg => { s with link := { s.link with fd := none }, sock := none, rx := .retry cfg }
  | .retry cfg =>
    if s.session cfg.generation then { s with rx := .backoff cfg } else { s with rx := .top }
  | .backoff cfg => { s.stateCore cfg.generation false choice.error with rx := .top }

inductive TxResult where
  | error
  | wrote (n : Nat)
deriving DecidableEq

/-- The time, what a write returned, and whether the frame has then waited too long. -/
structure TxChoice where
  now : Nat
  result : TxResult
  timedOut : Bool
deriving DecidableEq

/-- The first packet has waited more than a second. -/
def expired (p : Packet) (now : Nat) : Bool := decide (now - p.time > 1000000)

/-- The first packet leaves the queue as expired. -/
def expire (s : Vpn) (p : Packet) : Vpn :=
  { s with
    queue := s.queue.pop
    queueExpired := s.queueExpired + 1
    txDropped := s.txDropped + 1
    settled := s.settled ++ [⟨p, .expired⟩] }

/-- After loading the task sends, or waits if it got nothing. -/
def doneLoading (s : Vpn) (run : TxRun) : Vpn :=
  { s with
    tx := if run.datagram ∨ run.batch.used = run.batch.data.length then .check run
      else .sending run }

/-- One turn of the loop in `load_tx_batch` or `load_udp_packet`, up to a full batch, an empty
queue or another generation. -/
def load (batchFrames : Nat) (s : Vpn) (run : TxRun) (scanned now : Nat) : Vpn :=
  if scanned < queueSlots ∧ run.generation = s.generation ∧ s.enabled = true ∧
      (run.datagram = true ∨ run.batch.count < batchFrames) then
    match s.queue.front with
    | none => s.doneLoading run
    | some p =>
      if expired p now then { s.expire p with tx := .loading run (scanned + 1) }
      else if run.datagram then
        { s with queue := s.queue.pop, tx := .sending { run with udp := some p } }
      else
        match run.batch.append batchFrames p.data with
        | none => s.doneLoading run
        | some batch =>
          { s with
            queue := s.queue.pop
            tx := .loading { run with batch := batch, loaded := run.loaded ++ [p] }
              (scanned + 1) }
  else s.doneLoading run

/-- The connection that bytes written to a descriptor go to. -/
def target (s : Vpn) (fd : Nat) : Option Sock :=
  match s.sock with
  | some sock => if sock.fd = fd then some sock else none
  | none => none

/-- Packets whose last byte a connection has taken. -/
def complete (s : Vpn) (sock : Sock) (packets : List Packet) : Vpn :=
  { s with
    packetsOut := s.packetsOut + UInt32.ofNat packets.length
    settled := s.settled ++ packets.map fun p => ⟨p, .sent sock.conn sock.generation⟩ }

/-- A write of `n` bytes, and the deadline behind it. A descriptor that is not open gives an
error. -/
def write (s : Vpn) (run : TxRun) (n : Nat) (timedOut : Bool) : Vpn :=
  match s.target run.fd with
  | none => { s with tx := .leaving run }
  | some sock =>
    if run.datagram then
      match run.udp with
      | none => { s with tx := .check run }
      | some p =>
        if n = 0 then { s with tx := if timedOut then .leaving run else .check run }
        else if n = p.data.length then
          { s.complete sock [p] with tx := .check { run with udp := none } }
        else { s with tx := .leaving run }
    else if n = 0 then { s with tx := if timedOut then .leaving run else .check run }
    else
      match run.batch.advance n with
      | none => { s with tx := .leaving run }
      | some (batch, packets, _) =>
        let after := { run with batch := batch }
        { s.complete sock ((run.loaded.drop run.batch.completed).take packets) with
          tx := if timedOut && decide (batch.used < batch.data.length) then .leaving after
            else .check after }

/-- The end of a connection's loop: what was not sent is counted as dropped. -/
def leave (s : Vpn) (run : TxRun) : Vpn :=
  { s with
    txDropped := s.txDropped + UInt32.ofNat run.held.length
    settled := s.settled ++ run.held.map fun p => ⟨p, .dropped⟩
    link := if s.link.epoch = run.epoch then { s.link with txStopped := true } else s.link
    tx := .idle }

/-- One step of the sending task. -/
def txStep (batchFrames : Nat) (s : Vpn) (choice : TxChoice) : Vpn :=
  match s.tx with
  | .idle =>
    match s.link.active, s.link.fd with
    | true, some fd =>
      { s with
        tx := .check ⟨fd, s.link.epoch, s.link.generation, s.link.datagram, TxBatch.empty, [],
          none⟩ }
    | _, _ => s
  | .check run =>
    if s.link.active = true ∧ s.link.epoch = run.epoch ∧ s.link.generation = run.generation ∧
        s.link.fd = some run.fd then { s with tx := .session run }
    else { s with tx := .leaving run }
  | .session run =>
    if s.session run.generation then
      if run.datagram then
        if run.udp = none then { s with tx := .loading run 0 } else { s with tx := .sending run }
      else if run.batch.used = run.batch.data.length then
        { s with tx := .loading { run with batch := TxBatch.empty, loaded := [] } 0 }
      else { s with tx := .sending run }
    else { s with tx := .leaving run }
  | .loading run scanned => s.load batchFrames run scanned choice.now
  | .sending run =>
    match choice.result with
    | .error => { s with tx := .leaving run }
    | .wrote n => s.write run n choice.timedOut
  | .leaving run => s.leave run

inductive Event where
  | send (p : Bytes) (now : Nat)
  | output (p : Bytes) (now : Nat) (wg : WgEnv)
  | apply (c : Config)
  | setLan (usb ap : Option Netif)
  | rx (choice : RxChoice)
  | tx (choice : TxChoice)

def step (batchFrames : Nat) (s : Vpn) : Event → Vpn
  | .send p now => s.sendIpv4 p now
  | .output p now wg => s.output p now wg
  | .apply c => s.applyConfig c
  | .setLan usb ap => { s with usb := usb, ap := ap }
  | .rx choice => s.rxStep choice
  | .tx choice => s.txStep batchFrames choice

def run (batchFrames : Nat) (events : List Event) : Vpn :=
  events.foldl (step batchFrames) init

end Vpn

end Meshpn.Device

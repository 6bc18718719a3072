import Meshpn.Device.Frame

/-!
The receiving side of the tunnel. The packets of one read, or of one drain of the
datagram socket, are copied into a batch: one buffer whose size follows from an
option of the build, and for every packet a slot with its offset and its length
in sixteen bits each. The batch is then injected into the network stack from the
stack's own thread.
-/

namespace Meshpn.Device

open Meshpn.Lib

/-- `MESHVPN_VPN_SOCKET_RX_BYTES`: what a read asks for. -/
def socketRxBytes : Nat := 8192

def rxBatchFrames : Nat := 320

/-- `MESHVPN_VPN_RX_BATCH_BYTES`, from `MESHVPN_VPN_UDP_RX_BATCH_FRAMES`. -/
def rxBatchBytes (udpRxBatchFrames : Nat) : Nat := udpRxBatchFrames * mtu

structure RxSlot where
  offset : UInt16
  length : UInt16
deriving DecidableEq

/-- The slots in use and the bytes copied; `used` is the number of these. -/
structure RxBatch where
  slots : List RxSlot
  data : Bytes
deriving DecidableEq

namespace RxBatch

/-- The batch as it is reset before a read. -/
def empty : RxBatch := ⟨[], []⟩

def receivePacket (udpRxBatchFrames : Nat) (batch : RxBatch) (p : Bytes) : RxBatch × Bool :=
  if batch.slots.length = rxBatchFrames ∨ p.length > mtu ∨
      batch.data.length + p.length > rxBatchBytes udpRxBatchFrames then (batch, false)
  else
    (⟨batch.slots ++ [⟨UInt16.ofNat batch.data.length, UInt16.ofNat p.length⟩], batch.data ++ p⟩,
      true)

/-- What `inject_batch` finds at the offset of a slot. -/
def slice (batch : RxBatch) (slot : RxSlot) : Bytes :=
  (batch.data.drop slot.offset.toNat).take slot.length.toNat

def slices (batch : RxBatch) : List Bytes := batch.slots.map batch.slice

end RxBatch

/-- What the rest of the device decides while a packet is injected: whether the session is
still the current one, and whether there is a buffer. -/
structure InjectEnv where
  session : Bool
  alloc : Bool

inductive Injected where
  | failed
  | dropped
  | input (p : Bytes)

def injectPacket (env : InjectEnv) (data : Bytes) : Injected :=
  if env.session then
    if env.alloc then
      match normalise data with
      | some p => .input p
      | none => .failed
    else .dropped
  else .failed

/-- The packets handed to `inject_packet`, those that the stack was given, and the result. -/
structure InjectedBatch where
  handed : List Bytes
  stack : List Bytes
  ok : Bool

/-- The loop of `inject_batch`, with one environment for each packet. -/
def injectLoop (env : Nat → InjectEnv) : Nat → List Bytes → InjectedBatch
  | _, [] => ⟨[], [], true⟩
  | i, p :: rest =>
    match injectPacket (env i) p with
    | .failed => ⟨[p], [], false⟩
    | .dropped =>
      let more := injectLoop env (i + 1) rest
      { more with handed := p :: more.handed }
    | .input q =>
      let more := injectLoop env (i + 1) rest
      { more with handed := p :: more.handed, stack := q :: more.stack }

def injectBatch (session : Bool) (env : Nat → InjectEnv) (batch : RxBatch) : InjectedBatch :=
  if session then injectLoop env 0 batch.slices else ⟨[], [], false⟩

structure RxStream where
  decoder : Decoder
  partialSince : Nat
  partialActive : Bool

def streamTimeoutUs : Nat := 5000000

namespace RxStream

def init : RxStream := ⟨Decoder.init, 0, false⟩

/-- `meshvpn_vpn_rx_feed`: a frame that begins with this read gets its own deadline. -/
def feed {σ : Type} (emit : σ → Bytes → σ × Bool) (s : RxStream) (data : Bytes) (now : Nat)
    (ctx : σ) : RxStream × σ × Bool :=
  let decoded := decode emit s.decoder data ctx
  if decoded.ok then
    if decoded.decoder.header = [] then
      (⟨decoded.decoder, s.partialSince, false⟩, decoded.ctx, true)
    else if s.partialActive = false ∨ decoded.decoder.completed ≠ s.decoder.completed then
      (⟨decoded.decoder, now, true⟩, decoded.ctx, true)
    else (⟨decoded.decoder, s.partialSince, s.partialActive⟩, decoded.ctx, true)
  else ({ s with decoder := decoded.decoder }, decoded.ctx, false)

/-- `meshvpn_vpn_rx_expired`. -/
def expired (s : RxStream) (now : Nat) : Bool :=
  s.partialActive && decide (now - s.partialSince > streamTimeoutUs)

theorem feed_decoder {σ : Type} (emit : σ → Bytes → σ × Bool) (s : RxStream) (data : Bytes)
    (now : Nat) (ctx : σ) :
    (s.feed emit data now ctx).1.decoder = (decode emit s.decoder data ctx).decoder ∧
      (s.feed emit data now ctx).2 =
        ((decode emit s.decoder data ctx).ctx, (decode emit s.decoder data ctx).ok) := by
  unfold feed
  dsimp only
  split
  case isTrue hok =>
    rw [hok]
    split
    · exact ⟨rfl, rfl⟩
    · split <;> exact ⟨rfl, rfl⟩
  case isFalse hfailed =>
    rw [Bool.not_eq_true] at hfailed
    rw [hfailed]
    exact ⟨rfl, rfl⟩

end RxStream

/-- Why the worker leaves its receive loop. -/
inductive RxFailure where
  | remoteClosed
  | recv
  | invalidFrame
  | inject
  | rxFrameTimeout
  | session
deriving DecidableEq

/-- A read that returned bytes, its time, and what the stack's thread found. -/
structure Read where
  bytes : Bytes
  now : Nat
  session : Bool
  env : Nat → InjectEnv

inductive RxEvent where
  | read (r : Read)
  | tick (now : Nat)
  | recvError
  | sessionOver

/-- One connection's receive loop: the stream, the packets handed to `inject_packet` and given
to the stack since its start, and why it ended. -/
structure RxLink where
  stream : RxStream
  handed : List Bytes
  stack : List Bytes
  ended : Option RxFailure

namespace RxLink

def init : RxLink := ⟨RxStream.init, [], [], none⟩

/-- The batch of a read. -/
def load (udpRxBatchFrames : Nat) (link : RxLink) (r : Read) : RxStream × RxBatch × Bool :=
  link.stream.feed (RxBatch.receivePacket udpRxBatchFrames) r.bytes r.now RxBatch.empty

def read (udpRxBatchFrames : Nat) (link : RxLink) (r : Read) : RxLink :=
  let (stream, batch, ok) := link.load udpRxBatchFrames r
  if r.bytes = [] then { link with ended := some .remoteClosed }
  else if ok = false then { link with stream := stream, ended := some .invalidFrame }
  else if batch.slots = [] then { link with stream := stream }
  else
    let injected := injectBatch r.session r.env batch
    { stream := stream
      handed := link.handed ++ injected.handed
      stack := link.stack ++ injected.stack
      ended := if injected.ok then none else some .inject }

/-- A turn of the loop; nothing happens once it has ended. -/
def step (udpRxBatchFrames : Nat) (link : RxLink) (event : RxEvent) : RxLink :=
  if link.ended.isSome then link
  else
    match event with
    | .read r => link.read udpRxBatchFrames r
    | .tick now =>
      if link.stream.expired now then { link with ended := some .rxFrameTimeout } else link
    | .recvError => { link with ended := some .recv }
    | .sessionOver => { link with ended := some .session }

def run (udpRxBatchFrames : Nat) (events : List RxEvent) : RxLink :=
  events.foldl (step udpRxBatchFrames) init

end RxLink

/-- The loop of `receive_udp_batch` over what `recv` returned, of at most the option's number
of calls and at most one byte more than a packet each: the batch and how many datagrams were
counted as invalid. -/
def receiveUdpBatch (udpRxBatchFrames : Nat) (datagrams : List Bytes) : RxBatch × Nat :=
  (datagrams.take udpRxBatchFrames).foldl
    (fun (batch, invalid) datagram =>
      let received := batch.receivePacket udpRxBatchFrames (datagram.take (mtu + 1))
      if datagram = [] ∨ received.2 = false then (batch, invalid + 1) else (received.1, invalid))
    (RxBatch.empty, 0)

end Meshpn.Device

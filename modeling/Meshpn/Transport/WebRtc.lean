import Meshpn.Transport.SendBuffer

/-!
Sending to one peer of the WebRTC transport: `WebRTCTransport.send` and the
handlers around it, while the data channel is open. In front of the channel
stand two queues, the coalescing buffer and behind it an overflow queue for
what a full buffer refuses. The buffer's own timer empties the buffer and not
the overflow queue, and `send` offers its packet to the buffer first.
-/

namespace Meshpn.Transport.WebRtc

open Meshpn.Lib

/-- A packet of the mesh: its first byte is a version, never the marker. -/
structure Datagram where
  bytes : Bytes
  plain : Plain bytes

structure Config where
  sendBufferMaxQueue : Nat
  sendOverflowMax : Nat

/-- The options the buffer of a channel is made with. -/
def Config.options (config : Config) : BufferOptions where
  maxFrameSize := 15000
  maxQueuePackets := if config.sendBufferMaxQueue = 0 then 500 else config.sendBufferMaxQueue

structure Peer where
  buffer : SendBuffer
  overflow : List Bytes
  /-- The packets for which `send` returned true, in call order. -/
  accepted : List Bytes
  deriving DecidableEq, Repr

def Peer.init : Peer := ⟨.empty, [], []⟩

def drainSendOverflow (o : BufferOptions) :
    List Bytes → SendBuffer → List Bool → List Bytes × SendBuffer
  | [], buffer, _ => ([], buffer)
  | head :: rest, buffer, answers =>
    match buffer.push o head answers with
    | (false, refused, _) => (head :: rest, refused)
    | (true, taken, left) => drainSendOverflow o rest taken left

/-- `send(peerId, data)`: whether it was accepted, and the peer after it. -/
def send (config : Config) (peer : Peer) (data : Bytes) (answers : List Bool) : Bool × Peer :=
  match peer.buffer.push config.options data answers with
  | (true, taken, left) =>
    let (overflow, buffer) := drainSendOverflow config.options peer.overflow taken left
    (true, ⟨buffer, overflow, peer.accepted ++ [data]⟩)
  | (false, _, _) =>
    if config.sendOverflowMax = 0 then (false, peer)
    else if peer.overflow.length ≥ config.sendOverflowMax then (false, peer)
    else (true, { peer with
      overflow := peer.overflow ++ [data], accepted := peer.accepted ++ [data] })

/-- The `onBufferedAmountLow` handler. -/
def bufferedAmountLow (config : Config) (peer : Peer) (answers : List Bool) : Peer :=
  let (resumed, left) := peer.buffer.resume config.options answers
  let (overflow, buffer) := drainSendOverflow config.options peer.overflow resumed left
  { peer with buffer, overflow }

/-- What can happen at one peer. Each event carries the channel's answers to
the readiness questions that its handling asks. -/
inductive Event where
  | send (packet : Datagram) (answers : List Bool)
  | timer (answers : List Bool)
  | bufferedAmountLow (answers : List Bool)

def step (config : Config) (peer : Peer) : Event → Peer
  | .send packet answers => (send config peer packet.bytes answers).2
  | .timer answers => { peer with buffer := peer.buffer.fire config.options answers }
  | .bufferedAmountLow answers => bufferedAmountLow config peer answers

def run (config : Config) (peer : Peer) (events : List Event) : Peer :=
  events.foldl (step config) peer

/-- What came out of the channel at the other end. -/
def Peer.delivered (peer : Peer) : List Bytes := received peer.buffer.frames

/-- Delivered, coalescing and overflowing, in the order they would go out. -/
def Peer.stream (peer : Peer) : List Bytes := peer.buffer.stream ++ peer.overflow

structure Peer.Ok (peer : Peer) : Prop where
  buffer : peer.buffer.Ok
  overflow : ∀ packet ∈ peer.overflow, Plain packet

theorem Peer.init_ok : Peer.init.Ok := ⟨SendBuffer.empty_ok, nofun⟩

section Queues

variable {config : Config}

theorem options_size : config.options.maxFrameSize ≤ 65535 := by
  simp [Config.options]

theorem drainSendOverflow_spec (overflow : List Bytes) {buffer : SendBuffer} (hb : buffer.Ok)
    (hplain : ∀ packet ∈ overflow, Plain packet) (answers : List Bool) :
    (drainSendOverflow config.options overflow buffer answers).2.stream ++
        (drainSendOverflow config.options overflow buffer answers).1 =
      buffer.stream ++ overflow ∧
    (drainSendOverflow config.options overflow buffer answers).2.Ok ∧
    ∀ packet ∈ (drainSendOverflow config.options overflow buffer answers).1, Plain packet := by
  induction overflow generalizing buffer answers with
  | nil => exact ⟨rfl, hb, nofun⟩
  | cons head rest ih =>
    unfold drainSendOverflow SendBuffer.push
    by_cases hfull : buffer.full config.options = true
    · simp only [hfull, if_true]
      exact ⟨trivial, hb, hplain⟩
    simp only [hfull, Bool.false_eq_true, if_false]
    obtain ⟨htaken, hok⟩ :=
      SendBuffer.enqueue_spec options_size hb (hplain head (by simp)) answers
    obtain ⟨hstream, hdone⟩ := ih hok (fun p hp => hplain p (by simp [hp]))
      (buffer.enqueue config.options head answers).2
    refine ⟨?_, hdone⟩
    rw [hstream, htaken, List.append_assoc]
    rfl

variable {peer : Peer} (hpeer : peer.Ok)
include hpeer

theorem timer_spec (answers : List Bool) :
    (step config peer (.timer answers)).stream = peer.stream ∧
      (step config peer (.timer answers)).Ok := by
  obtain ⟨hstream, hok⟩ := SendBuffer.fire_spec options_size hpeer.buffer answers
  exact ⟨congrArg (· ++ peer.overflow) hstream, hok, hpeer.overflow⟩

theorem bufferedAmountLow_spec (answers : List Bool) :
    (step config peer (.bufferedAmountLow answers)).stream = peer.stream ∧
      (step config peer (.bufferedAmountLow answers)).Ok := by
  obtain ⟨hresumed, hok⟩ := SendBuffer.resume_spec options_size hpeer.buffer answers
  obtain ⟨hstream, hdone⟩ := drainSendOverflow_spec peer.overflow hok hpeer.overflow
    (peer.buffer.resume config.options answers).2
  rw [hresumed] at hstream
  exact ⟨hstream, hdone.1, hdone.2⟩

theorem send_room_spec (hroom : peer.buffer.full config.options = false) (packet : Datagram)
    (answers : List Bool) :
    (send config peer packet.bytes answers).1 = true ∧
    (send config peer packet.bytes answers).2.stream =
      peer.buffer.stream ++ packet.bytes :: peer.overflow ∧
    (send config peer packet.bytes answers).2.accepted = peer.accepted ++ [packet.bytes] ∧
    (send config peer packet.bytes answers).2.Ok := by
  obtain ⟨htaken, hok⟩ := SendBuffer.enqueue_spec options_size hpeer.buffer packet.plain answers
  obtain ⟨hstream, hdone⟩ := drainSendOverflow_spec peer.overflow hok hpeer.overflow
    (peer.buffer.enqueue config.options packet.bytes answers).2
  simp only [send, SendBuffer.push, hroom, Bool.false_eq_true, if_false]
  refine ⟨trivial, ?_, trivial, hdone.1, hdone.2⟩
  simp only [Peer.stream]
  rw [hstream, htaken, List.append_assoc]
  rfl

/-- A packet that a full buffer refuses goes behind the overflow queue, or is
refused and nothing changes. -/
theorem send_full_spec (hfull : peer.buffer.full config.options = true) (packet : Datagram)
    (answers : List Bool) :
    (send config peer packet.bytes answers = (false, peer)) ∨
    (send config peer packet.bytes answers).2.stream = peer.stream ++ [packet.bytes] ∧
    (send config peer packet.bytes answers).2.accepted = peer.accepted ++ [packet.bytes] ∧
    (send config peer packet.bytes answers).2.Ok := by
  simp only [send, SendBuffer.push, hfull, if_true]
  split
  · exact Or.inl rfl
  split
  · exact Or.inl rfl
  refine Or.inr ⟨by simp [Peer.stream], rfl, hpeer.buffer, ?_⟩
  intro p hp
  rcases List.mem_append.mp hp with h | h
  · exact hpeer.overflow p h
  · rw [List.mem_singleton.mp h]
    exact packet.plain

end Queues

/-- Nothing waits in the overflow queue, or the buffer is full. -/
def Orderly (config : Config) (peer : Peer) : Event → Prop
  | .send _ _ => peer.overflow = [] ∨ peer.buffer.full config.options = true
  | .timer _ | .bufferedAmountLow _ => True

def OrderlyRun (config : Config) : Peer → List Event → Prop
  | _, [] => True
  | peer, event :: events =>
    Orderly config peer event ∧ OrderlyRun config (step config peer event) events

/-- A step leaves the stream, or accepts a packet: one for which the buffer has room goes in
front of those that overflow, any other behind them. -/
theorem step_cases {config : Config} {peer : Peer} (event : Event) (hpeer : peer.Ok) :
    (step config peer event).Ok ∧
      ((step config peer event).stream = peer.stream ∧
          (step config peer event).accepted = peer.accepted ∨
        ∃ packet, (step config peer event).accepted = peer.accepted ++ [packet] ∧
          ((step config peer event).stream = peer.stream ++ [packet] ∨
            (step config peer event).stream = peer.buffer.stream ++ packet :: peer.overflow ∧
              (Orderly config peer event → peer.overflow = []))) := by
  cases event with
  | send packet answers =>
    cases hfull : peer.buffer.full config.options with
    | true =>
      rcases send_full_spec hpeer hfull packet answers with hsame | ⟨hstream, haccepted, hok⟩
      · have : step config peer (.send packet answers) = peer := congrArg Prod.snd hsame
        rw [this]
        exact ⟨hpeer, .inl ⟨rfl, rfl⟩⟩
      · exact ⟨hok, .inr ⟨_, haccepted, .inl hstream⟩⟩
    | false =>
      obtain ⟨_, hstream, haccepted, hok⟩ := send_room_spec hpeer hfull packet answers
      refine ⟨hok, .inr ⟨_, haccepted, .inr ⟨hstream, fun horderly => ?_⟩⟩⟩
      rcases horderly with h | h
      · exact h
      · simp [hfull] at h
  | timer answers =>
    obtain ⟨hstream, hok⟩ : (step config peer (.timer answers)).stream = _ ∧ _ :=
      timer_spec hpeer answers
    exact ⟨hok, .inl ⟨hstream, rfl⟩⟩
  | bufferedAmountLow answers =>
    obtain ⟨hstream, hok⟩ : (step config peer (.bufferedAmountLow answers)).stream = _ ∧ _ :=
      bufferedAmountLow_spec hpeer answers
    exact ⟨hok, .inl ⟨hstream, rfl⟩⟩

/-- Everything accepted is in the stream, once and in order. -/
structure Peer.InOrder (peer : Peer) : Prop where
  ok : peer.Ok
  stream : peer.stream = peer.accepted

theorem step_inOrder {config : Config} {peer : Peer} {event : Event} (hpeer : peer.InOrder)
    (horderly : Orderly config peer event) : (step config peer event).InOrder := by
  obtain ⟨hok, ⟨hstream, haccepted⟩ | ⟨packet, haccepted, hstream | ⟨hstream, hempty⟩⟩⟩ :=
    step_cases event hpeer.ok
  · exact ⟨hok, by rw [hstream, haccepted, hpeer.stream]⟩
  · exact ⟨hok, by rw [hstream, haccepted, hpeer.stream]⟩
  · refine ⟨hok, ?_⟩
    rw [hstream, haccepted, ← hpeer.stream, Peer.stream, hempty horderly, List.append_nil]

theorem run_inOrder {config : Config} (events : List Event) {peer : Peer} (hpeer : peer.InOrder)
    (horderly : OrderlyRun config peer events) : (run config peer events).InOrder := by
  induction events generalizing peer with
  | nil => exact hpeer
  | cons event events ih => exact ih (step_inOrder hpeer horderly.1) horderly.2

/-- Everything accepted is in the stream, once, in whatever order. -/
structure Peer.Conserves (peer : Peer) : Prop where
  ok : peer.Ok
  stream : peer.stream.Perm peer.accepted

theorem step_conserves {config : Config} {peer : Peer} (event : Event) (hpeer : peer.Conserves) :
    (step config peer event).Conserves := by
  obtain ⟨hok, ⟨hstream, haccepted⟩ | ⟨packet, haccepted, hstream | ⟨hstream, _⟩⟩⟩ :=
    step_cases event hpeer.ok
  · exact ⟨hok, by rw [hstream, haccepted]; exact hpeer.stream⟩
  · exact ⟨hok, by rw [hstream, haccepted]; exact hpeer.stream.append_right _⟩
  · refine ⟨hok, ?_⟩
    rw [hstream, haccepted]
    exact (List.perm_middle.trans (List.perm_append_singleton _ _).symm).trans
      (hpeer.stream.append_right _)

theorem run_conserves {config : Config} (events : List Event) {peer : Peer}
    (hpeer : peer.Conserves) : (run config peer events).Conserves := by
  induction events generalizing peer with
  | nil => exact hpeer
  | cons event events ih => exact ih (step_conserves event hpeer)

def datagram (n : UInt8) : Datagram := ⟨[2, n], rfl⟩

/-- A buffer of one packet: the second waits in the overflow queue, the timer
empties the buffer, and the third goes out before the second. -/
def overtakingRun : List Event :=
  [.send (datagram 0) [], .send (datagram 1) [], .timer [true], .send (datagram 2) [],
    .timer [true]]

theorem overtakingRun_delivers :
    (run ⟨1, 8000⟩ Peer.init overtakingRun).delivered = [[2, 0], [2, 2]] ∧
      (run ⟨1, 8000⟩ Peer.init overtakingRun).accepted = [[2, 0], [2, 1], [2, 2]] := by
  decide

end Meshpn.Transport.WebRtc

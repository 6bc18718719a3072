import Mathlib.Logic.Function.Basic
import Meshpn.Lib.Bytes

/-!
Handing packets to the transports of a peer: `TransportManager.send` tries the
peer's transports in the preferred order, and the node keeps a retry queue for
each peer whose transports refused a packet. With `strictTransportOrdering`
nothing overtakes a waiting packet: while a peer's queue is not empty every new
packet joins it, and only `_drainSendRetryQueue` takes packets out, from the
front.

What a transport answers is its own affair, so each call comes with the list of
answers its transports give, in the order they are asked; a transport beyond the
list refuses. The `flush` callbacks of the callers only count traffic: a
callback is a token, and running it appends the token to a log.
-/

namespace Meshpn.Transport.SendRetry

open Meshpn.Lib

inductive TransportType where
  | webrtc
  | quic
  | websocket
  deriving DecidableEq, Repr

/-- What a caller sends: the bytes, and the callback for when they have left. -/
structure Entry (Flush : Type) where
  serialized : Bytes
  flush : Option Flush
  deriving DecidableEq, Repr

/-- `TransportManager`: the transports it has, the order it tries them in, and
those each peer is connected by. -/
structure Manager (Peer : Type) where
  transports : List TransportType
  preferredOrder : List TransportType
  peerTransports : Peer → Option (List TransportType)

structure Node (Peer Flush : Type) where
  strictTransportOrdering : Bool
  sendRetryMaxPackets : Nat
  manager : Manager Peer
  sendRetryQueues : Peer → Option (List (Entry Flush))
  /-- Every packet a transport has taken, with its peer, in order. -/
  handed : List (Peer × Entry Flush)
  /-- The callbacks that have run, in order. -/
  flushed : List Flush

variable {Peer Flush : Type} [DecidableEq Peer]

def Manager.isConnected (manager : Manager Peer) (peer : Peer) : Bool :=
  match manager.peerTransports peer with
  | none => false
  | some types => 0 < types.length

/-- The loop of `send` over the order: whether a transport took the packet, and
the answers nobody asked for yet. -/
def Manager.offer (manager : Manager Peer) (types : List TransportType) :
    List TransportType → List Bool → Bool × List Bool
  | [], answers => (false, answers)
  | type :: order, answers =>
    if type ∈ types ∧ type ∈ manager.transports then
      match answers with
      | [] => manager.offer types order []
      | true :: left => (true, left)
      | false :: left => manager.offer types order left
    else manager.offer types order answers

/-- `send(peerId, data)`, without a preferred transport as the node calls it. -/
def Manager.send (manager : Manager Peer) (peer : Peer) (answers : List Bool) :
    Bool × List Bool :=
  match manager.peerTransports peer with
  | none => (false, answers)
  | some types =>
    if types.length = 0 then (false, answers)
    else manager.offer types manager.preferredOrder answers

def Manager.setPeer (manager : Manager Peer) (peer : Peer)
    (types : Option (List TransportType)) : Manager Peer :=
  { manager with peerTransports := Function.update manager.peerTransports peer types }

/-- The handler of a transport's `peer-connected`. -/
def Manager.peerConnected (manager : Manager Peer) (type : TransportType) (peer : Peer) :
    Manager Peer :=
  let types := (manager.peerTransports peer).getD []
  manager.setPeer peer (some (if type ∈ types then types else types ++ [type]))

/-- The handler of a transport's `peer-disconnected`: the manager after it, and
whether it emits `peer-disconnected` itself. -/
def Manager.peerDisconnected (manager : Manager Peer) (type : TransportType) (peer : Peer) :
    Manager Peer × Bool :=
  match manager.peerTransports peer with
  | none => (manager, true)
  | some types =>
    if (types.erase type).length = 0 then (manager.setPeer peer none, true)
    else (manager.setPeer peer (some (types.erase type)), false)

namespace Node

/-- The queue of a peer, empty when the map has none. -/
def queue (node : Node Peer Flush) (peer : Peer) : List (Entry Flush) :=
  (node.sendRetryQueues peer).getD []

def setQueue (node : Node Peer Flush) (peer : Peer) (queue : Option (List (Entry Flush))) :
    Node Peer Flush :=
  { node with sendRetryQueues := Function.update node.sendRetryQueues peer queue }

/-- A transport has taken the packet, and its callback runs. -/
def hand (node : Node Peer Flush) (peer : Peer) (entry : Entry Flush) : Node Peer Flush :=
  { node with
    handed := node.handed ++ [(peer, entry)]
    flushed := node.flushed ++ entry.flush.toList }

/-- The loop of `_drainSendRetryQueue`: what it leaves of the queue, and the node. -/
def drainLoop (node : Node Peer Flush) (peer : Peer) :
    List (Entry Flush) → List Bool → List (Entry Flush) × Node Peer Flush
  | [], _ => ([], node)
  | head :: rest, answers =>
    if node.manager.isConnected peer then
      match node.manager.send peer answers with
      | (true, left) => (node.hand peer head).drainLoop peer rest left
      | (false, _) => (head :: rest, node)
    else (head :: rest, node)

def drainSendRetryQueue (node : Node Peer Flush) (peer : Peer) (answers : List Bool) :
    Node Peer Flush :=
  match node.sendRetryQueues peer with
  | none => node
  | some [] => node
  | some (head :: rest) =>
    let (left, drained) := node.drainLoop peer (head :: rest) answers
    drained.setQueue peer (if left.length = 0 then none else some left)

def clearSendRetryQueue (node : Node Peer Flush) (peer : Peer) : Node Peer Flush :=
  node.setQueue peer none

/-- `_transportSendWithRetry` with `strictTransportOrdering`. -/
def sendStrict (node : Node Peer Flush) (peer : Peer) (entry : Entry Flush)
    (answers : List Bool) : Bool × Node Peer Flush :=
  if 0 < (node.queue peer).length then
    if node.sendRetryMaxPackets ≤ (node.queue peer).length then (false, node)
    else (true, node.setQueue peer (some (node.queue peer ++ [entry])))
  else if (node.manager.send peer answers).1 then (true, node.hand peer entry)
  else (true, node.setQueue peer (some [entry]))

/-- `_transportSendWithRetry` without it: the packet goes first, and joins the
queue only when it is refused. -/
def sendRelaxed (node : Node Peer Flush) (peer : Peer) (entry : Entry Flush)
    (answers : List Bool) : Bool × Node Peer Flush :=
  if (node.manager.send peer answers).1 then (true, node.hand peer entry)
  else if node.sendRetryMaxPackets ≤ (node.queue peer).length then
    (false, node.setQueue peer (some (node.queue peer)))
  else (true, node.setQueue peer (some (node.queue peer ++ [entry])))

def transportSendWithRetry (node : Node Peer Flush) (peer : Peer) (entry : Entry Flush)
    (answers : List Bool) : Bool × Node Peer Flush :=
  if node.manager.isConnected peer then
    if node.strictTransportOrdering then node.sendStrict peer entry answers
    else node.sendRelaxed peer entry answers
  else (false, node)

end Node

/-- What reaches the node: a caller with a packet, a transport whose buffer has
emptied, and transports of peers that come up and go down. -/
inductive Event (Peer Flush : Type) where
  | send (peer : Peer) (entry : Entry Flush) (answers : List Bool)
  | bufferLow (peer : Peer) (answers : List Bool)
  | transportUp (type : TransportType) (peer : Peer)
  | transportDown (type : TransportType) (peer : Peer)

/-- One event: the node after it, and the packets it accepted with their peer. -/
def Node.step (node : Node Peer Flush) :
    Event Peer Flush → Node Peer Flush × List (Peer × Entry Flush)
  | .send peer entry answers =>
    match node.transportSendWithRetry peer entry answers with
    | (true, after) => (after, [(peer, entry)])
    | (false, after) => (after, [])
  | .bufferLow peer answers => (node.drainSendRetryQueue peer answers, [])
  | .transportUp type peer => ({ node with manager := node.manager.peerConnected type peer }, [])
  | .transportDown type peer =>
    match node.manager.peerDisconnected type peer with
    | (manager, true) => ({ node with manager }.clearSendRetryQueue peer, [])
    | (manager, false) => ({ node with manager }, [])

/-- A run: the node after it, and the packets accepted in call order. -/
def Node.run (node : Node Peer Flush) :
    List (Event Peer Flush) → Node Peer Flush × List (Peer × Entry Flush)
  | [] => (node, [])
  | event :: events =>
    let (next, first) := node.step event
    let (last, rest) := next.run events
    (last, first ++ rest)

/-- What of a log concerns one peer. -/
def forPeer (peer : Peer) (log : List (Peer × Entry Flush)) : List (Entry Flush) :=
  (log.filter (·.1 = peer)).map (·.2)

/-- A node that has just been made. -/
def Node.init (strict : Bool) (maxPackets : Nat)
    (transports preferredOrder : List TransportType) : Node Peer Flush where
  strictTransportOrdering := strict
  sendRetryMaxPackets := maxPackets
  manager := ⟨transports, preferredOrder, fun _ => none⟩
  sendRetryQueues := fun _ => none
  handed := []
  flushed := []

@[simp] theorem forPeer_nil (peer : Peer) : (forPeer peer [] : List (Entry Flush)) = [] := rfl

@[simp] theorem forPeer_append (peer : Peer) (first second : List (Peer × Entry Flush)) :
    forPeer peer (first ++ second) = forPeer peer first ++ forPeer peer second := by
  simp [forPeer]

theorem forPeer_map_self (peer : Peer) (entries : List (Entry Flush)) :
    forPeer peer (entries.map fun entry => (peer, entry)) = entries := by
  induction entries with
  | nil => rfl
  | cons entry rest ih => simpa [forPeer] using ih

theorem forPeer_map_other {peer other : Peer} (hne : other ≠ peer)
    (entries : List (Entry Flush)) :
    forPeer peer (entries.map fun entry => (other, entry)) = [] := by
  simp [forPeer, hne]

theorem forPeer_self (peer : Peer) (entry : Entry Flush) :
    forPeer peer [(peer, entry)] = [entry] := forPeer_map_self peer [entry]

theorem forPeer_other {peer other : Peer} (hne : other ≠ peer) (entry : Entry Flush) :
    forPeer peer [(other, entry)] = [] := forPeer_map_other hne [entry]

namespace Node

@[simp] theorem setQueue_handed (node : Node Peer Flush) (peer : Peer)
    (queue : Option (List (Entry Flush))) : (node.setQueue peer queue).handed = node.handed := rfl

@[simp] theorem setQueue_manager (node : Node Peer Flush) (peer : Peer)
    (queue : Option (List (Entry Flush))) :
    (node.setQueue peer queue).manager = node.manager := rfl

@[simp] theorem setQueue_strict (node : Node Peer Flush) (peer : Peer)
    (queue : Option (List (Entry Flush))) :
    (node.setQueue peer queue).strictTransportOrdering = node.strictTransportOrdering := rfl

theorem queue_setQueue_self (node : Node Peer Flush) (peer : Peer)
    (queue : Option (List (Entry Flush))) :
    (node.setQueue peer queue).queue peer = queue.getD [] := by
  simp [Node.queue, setQueue]

theorem queue_setQueue_other (node : Node Peer Flush) {peer other : Peer} (hne : other ≠ peer)
    (queue : Option (List (Entry Flush))) :
    (node.setQueue other queue).queue peer = node.queue peer := by
  simp [Node.queue, setQueue, Function.update_of_ne hne.symm]

omit [DecidableEq Peer] in
@[simp] theorem hand_queue (node : Node Peer Flush) (peer other : Peer) (entry : Entry Flush) :
    (node.hand peer entry).queue other = node.queue other := rfl

omit [DecidableEq Peer] in
theorem drainLoop_spec (node : Node Peer Flush) (peer : Peer) (queue : List (Entry Flush))
    (answers : List Bool) :
    ∃ gone, queue = gone ++ (node.drainLoop peer queue answers).1 ∧
      (node.drainLoop peer queue answers).2 =
        { node with
          handed := node.handed ++ gone.map fun entry => (peer, entry)
          flushed := node.flushed ++ gone.flatMap fun entry => entry.flush.toList } := by
  induction queue generalizing node answers with
  | nil => exact ⟨[], rfl, by simp [drainLoop]⟩
  | cons head rest ih =>
    have hstuck : ∃ gone, head :: rest = gone ++ (head :: rest) ∧ node =
        { node with
          handed := node.handed ++ gone.map fun entry => (peer, entry)
          flushed := node.flushed ++ gone.flatMap fun entry => entry.flush.toList } :=
      ⟨[], rfl, by simp⟩
    unfold drainLoop
    split
    case isTrue =>
      split
      case h_1 left _ =>
        obtain ⟨gone, hgone, hnode⟩ := ih (node.hand peer head) left
        refine ⟨head :: gone, congrArg (head :: ·) hgone, ?_⟩
        rw [hnode]
        simp [hand]
      case h_2 => exact hstuck
    case isFalse => exact hstuck

end Node

end Meshpn.Transport.SendRetry

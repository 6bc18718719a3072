import Meshpn.Mesh.Onion

/-!
The data path of a mesh node, `node.js`: sending into the mesh, and what one
message from a peer does. The worker pool computes the same result as its
fallback on the main thread, so a submitted job is a function call here.

What a node hands to the outside is an `Effect`. Counters, metrics and log
lines are left out.
-/

namespace Meshpn.Mesh

open Meshpn.Lib

/-- One node: its role, `discovery.getSessionKey`, and the pairs of flow id and
sequence number of `processedPackets`. -/
structure Node (Key : Type) where
  nodeId : Id
  isExit : Bool
  isClient : Bool
  directMode : Bool
  sessionKey : Id → Option Key
  processed : List (Id × Nat)

inductive Effect where
  /-- `_transportSendWithRetry`. -/
  | send (peerId : Id) (serialized : Bytes)
  /-- `_processExitPacket`. -/
  | exit (srcNode : Id) (payload : Bytes)
  /-- `reorderBuffer.addPacket`. -/
  | reorder (flowId : Id) (seq : Nat) (payload : Bytes)
  /-- `_handlePing`, `_handlePong` or `_handleAck`. -/
  | control (peerId : Id) (packet : Packet)
  deriving DecidableEq, Repr

/-- What the receive worker returns. `layer` is empty apart from its payload
for a direct packet, and `packetMeta` has the header fields only. -/
structure RxResult where
  peerId : Id
  packetType : PacketType
  layer : Layer
  packetMeta : Packet
  deriving DecidableEq, Repr

/-- How handling one message ended; `thrown` if an exception left the callback. -/
structure Outcome (Key : Type) where
  node : Node Key
  peeled : Option RxResult
  effects : List Effect
  thrown : Bool

section

variable {Key Nonce : Type}

def Node.idle (node : Node Key) : Outcome Key := ⟨node, none, [], false⟩

/-- The loop over the route that looks up one key a node; `none` at the first
node without one. -/
def Node.routeWithKeys (node : Node Key) : List Id → Option (List (Id × Key))
  | [] => some []
  | nodeId :: route =>
    match node.sessionKey nodeId with
    | none => none
    | some key => (node.routeWithKeys route).map ((nodeId, key) :: ·)

/-- `submitTx`: one plain encryption in direct mode, else an onion. -/
def encryptTx (aead : Aead Key Nonce) (nonces : Nat → Nonce) (payload : Bytes)
    (keys : List (Id × Key)) (directMode : Bool) : Bytes :=
  match directMode, keys with
  | true, [(_, key)] => aead.encrypt key (nonces 0) payload
  | _, _ => createOnionPacket aead nonces payload keys

/-- The packet that the send worker makes of `packetMeta` and the encrypted payload. -/
def Node.txPacket (aead : Aead Key Nonce) (node : Node Key) (nonces : Nat → Nonce)
    (flowId : Id) (payload : Bytes) (route : List Id) (exitNode : Id)
    (keys : List (Id × Key)) : Packet :=
  { type := (if node.directMode then PacketType.dataDirect else PacketType.data).code
    flowId
    seq := 0
    hop := 0
    ttl := defaultTtl
    srcNode := node.nodeId
    dstNode := exitNode
    route
    visitedNodes := []
    payload := encryptTx aead nonces payload keys node.directMode }

/-- `_sendThroughMesh`; the peer is `route[0]`. Nothing is sent without every
key, or where the packet does not serialize. -/
def Node.sendThroughMesh (aead : Aead Key Nonce) (node : Node Key) (nonces : Nat → Nonce)
    (flowId : Id) (payload : Bytes) (route : List Id) (exitNode : Id) : Option (Id × Bytes) :=
  match node.routeWithKeys route with
  | none => none
  | some keys =>
    (node.txPacket aead nonces flowId payload route exitNode keys).serialize.bind
      fun serialized => route.head?.map (·, serialized)

/-- The header fields that travel back from the worker; `new Packet` fills in the rest. -/
def Packet.meta (packet : Packet) : Packet :=
  { packet with type := PacketType.data.code, visitedNodes := [], payload := [] }

/-- `submitRx`; `none` where parsing or decryption throws. -/
def submitRx (aead : Aead Key Nonce) (reader : Reader) (data : Bytes) (sessionKey : Key)
    (peerId : Id) (packetType : PacketType) : Option RxResult :=
  (deserialize reader data).bind fun packet =>
    if packetType = .data then
      (peelOnionLayer aead packet.payload sessionKey).map (⟨peerId, .data, ·, packet.meta⟩)
    else
      (aead.decrypt sessionKey packet.payload).map
        (⟨peerId, .dataDirect, ⟨[], false, ·⟩, packet.meta⟩)

def Node.forwardPacket (node : Node Key) (originalPacket : Packet) (nextHop : Id)
    (newPayload : Bytes) (fromPeerId : Id) (result : RxResult) : Outcome Key :=
  if nextHop = fromPeerId then ⟨node, some result, [], false⟩
  else if nextHop = originalPacket.srcNode then ⟨node, some result, [], false⟩
  else
    match { originalPacket with
        payload := newPayload, hop := originalPacket.hop + 1 }.serialize with
    | none => ⟨node, some result, [], true⟩
    | some serialized => ⟨node, some result, [.send nextHop serialized], false⟩

/-- The branches of `_handleRxWorkerResult` on a peeled onion layer, once the
packet has passed the loop checks. -/
def Node.handleLayer (node : Node Key) (packet : Packet) (result : RxResult) : Outcome Key :=
  if result.layer.isExit then
    if node.isExit then
      ⟨node, some result, [.exit packet.srcNode result.layer.payload], false⟩
    else if node.isClient && packet.dstNode == node.nodeId then
      ⟨node, some result, [.reorder packet.flowId packet.seq result.layer.payload], false⟩
    else ⟨node, some result, [], false⟩
  else if result.layer.nextHop.isEmpty then ⟨node, some result, [], false⟩
  else node.forwardPacket packet result.layer.nextHop result.layer.payload result.peerId result

def Node.handleRxWorkerResult (node : Node Key) (result : RxResult) : Outcome Key :=
  let packet := result.packetMeta
  if result.packetType = .data then
    if packet.ttl ≤ 0 then ⟨node, some result, [], false⟩
    else if node.processed.contains (packet.flowId, packet.seq) then
      ⟨node, some result, [], false⟩
    else
      let node := { node with processed := (packet.flowId, packet.seq) :: node.processed }
      if packet.visitedNodes.contains node.nodeId then ⟨node, some result, [], false⟩
      else
        let packet := { packet with
          visitedNodes := packet.visitedNodes ++ [node.nodeId], ttl := packet.ttl - 1 }
        if packet.ttl ≤ 0 then ⟨node, some result, [], false⟩
        else node.handleLayer packet result
  else if node.isExit then
    ⟨node, some result, [.exit packet.srcNode result.layer.payload], false⟩
  else if node.isClient then
    ⟨node, some result, [.reorder packet.flowId packet.seq result.layer.payload], false⟩
  else ⟨node, some result, [], false⟩

/-- `_handleDirectDataPacket`: relay as it is, or decrypt at the destination. -/
def Node.handleDirectDataPacket (aead : Aead Key Nonce) (node : Node Key) (packet : Packet) :
    Outcome Key :=
  if packet.dstNode ≠ node.nodeId then
    match packet.serialize with
    | none => ⟨node, none, [], true⟩
    | some serialized => ⟨node, none, [.send packet.dstNode serialized], false⟩
  else
    match (node.sessionKey packet.srcNode).bind (aead.decrypt · packet.payload) with
    | none => node.idle
    | some payload =>
      if node.isExit then ⟨node, none, [.exit packet.srcNode payload], false⟩
      else if node.isClient then
        ⟨node, none, [.reorder packet.flowId packet.seq payload], false⟩
      else node.idle

/-- Hand a message to the worker and its result back to the node. -/
def Node.processRx (aead : Aead Key Nonce) (reader : Reader) (node : Node Key) (peerId : Id)
    (data : Bytes) (sessionKey : Key) (packetType : PacketType) : Outcome Key :=
  match submitRx aead reader data sessionKey peerId packetType with
  | none => node.idle
  | some result => node.handleRxWorkerResult result

/-- The `DATA_DIRECT` branch. It looks at the header before parsing it: bytes
42 to 58 are the destination and bytes 26 to 42 the source. -/
def Node.processDirect (aead : Aead Key Nonce) (reader : Reader) (node : Node Key) (peerId : Id)
    (data : Bytes) : Outcome Key :=
  if 58 ≤ data.length ∧ stripId ((data.drop 42).take 16) ≠ node.nodeId then
    match deserialize reader data with
    | none => node.idle
    | some packet => node.handleDirectDataPacket aead packet
  else if 42 ≤ data.length ∧ stripId ((data.drop 26).take 16) ≠ [] then
    match node.sessionKey (stripId ((data.drop 26).take 16)) with
    | none => node.idle
    | some key => node.processRx aead reader peerId data key .dataDirect
  else node.idle

/-- The other packet types. -/
def Node.processControl (reader : Reader) (node : Node Key) (peerId : Id) (data : Bytes) :
    Outcome Key :=
  match deserialize reader data with
  | none => node.idle
  | some packet =>
    if packet.type = PacketType.ping.code ∨ packet.type = PacketType.pong.code ∨
        packet.type = PacketType.ack.code then
      ⟨node, none, [.control peerId packet], false⟩
    else node.idle

/-- `_processIncomingMessage`. The key for a `DATA` packet is the one shared
with the peer it came from. -/
def Node.processIncomingMessage (aead : Aead Key Nonce) (reader : Reader) (node : Node Key)
    (peerId : Id) (data : Bytes) : Outcome Key :=
  if data.length < 2 then node.idle
  else if data[1]? = some PacketType.data.code then
    match node.sessionKey peerId with
    | none => node.idle
    | some key => node.processRx aead reader peerId data key .data
  else if data[1]? = some PacketType.dataDirect.code then
    node.processDirect aead reader peerId data
  else node.processControl reader peerId data

end

end Meshpn.Mesh

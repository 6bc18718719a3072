import Meshpn.Mesh.Node
import Meshpn.Mesh.Packet

/-!
Both versions of the packet format, and the fields that a node looks at before it
reads a packet. Version 1 has the route and the visited nodes as JSON, which may be
any value; `JSON.parse` and `generateFlowId` are parameters. Any version byte but 2 is
read as version 1. Timestamps are left out.

The receive path of a node for bytes that any peer may send: both versions of the
packet, with routes that are whatever `JSON.parse` returns, and both places where a
job ends up. A callback that throws leaves the message handler of a worker; on the
main thread `_fallbackRx` catches what it throws and calls it again with the error.

The transport, the exit's address translation and the reorder buffer are handed
their values and are taken not to throw.
-/

namespace Meshpn.Mesh

open Meshpn.Lib

/-- A value that `JSON.parse` returns. Of a number it matters here whether it is zero, and of
an object nothing. -/
inductive Json where
  | null
  | bool (b : Bool)
  | num (zero : Bool)
  | str (s : Bytes)
  | arr (values : List Json)
  | obj

/-- Whether `value || other` is the value. -/
def Json.truthy : Json → Bool
  | .null => false
  | .bool b => b
  | .num zero => !zero
  | .str s => !s.isEmpty
  | .arr _ => true
  | .obj => true

/-- A packet as it is read, whose route need not be a list of identifiers. -/
structure WirePacket where
  type : UInt8
  flowId : Id
  seq : Nat
  hop : Nat
  ttl : Nat
  srcNode : Id
  dstNode : Id
  route : Json
  visitedNodes : Json
  payload : Bytes

def Packet.wire (p : Packet) : WirePacket :=
  { type := p.type
    flowId := p.flowId
    seq := p.seq
    hop := p.hop
    ttl := p.ttl
    srcNode := p.srcNode
    dstNode := p.dstNode
    route := .arr (p.route.map .str)
    visitedNodes := .arr (p.visitedNodes.map .str)
    payload := p.payload }

/-- What reading a packet takes from elsewhere. -/
structure Decoder where
  /-- `JSON.parse`; `none` where it throws. -/
  parse : Bytes → Option Json
  generateFlowId : Id

/-- `readUInt16BE(0)`. -/
def readUInt16 : Bytes → Option Nat
  | high :: low :: _ => some (Bytes.toUInt16 high low)
  | _ => none

/-- A length, and JSON of that many bytes; the field falls back to an empty list. -/
def Decoder.readJson (decoder : Decoder) (bytes : Bytes) : Option (Json × Bytes) :=
  (readUInt16 bytes).bind fun length =>
    (decoder.parse (Bytes.toText ((bytes.drop 2).take length))).map fun value =>
      (if value.truthy then value else .arr [], (bytes.drop 2).drop length)

/-- `_deserializeV1`, from the two lists on. -/
def Decoder.readLegacy (decoder : Decoder) (type hopHigh hopLow ttl : UInt8) (seq : Nat)
    (body : Bytes) : Option WirePacket :=
  (decoder.readJson (body.drop 56)).bind fun (route, rest) =>
    (decoder.readJson rest).bind fun (visitedNodes, rest) =>
      (Bytes.readUInt32 rest).map fun length =>
        let flowId := stripId (body.take 16)
        { type := if type = 0 then PacketType.data.code else type
          flowId := if flowId.isEmpty then decoder.generateFlowId else flowId
          seq
          hop := Bytes.toUInt16 hopHigh hopLow
          ttl := ttl.toNat
          srcNode := stripId ((body.drop 16).take 16)
          dstNode := stripId ((body.drop 32).take 16)
          route
          visitedNodes
          payload := (rest.drop 4).take length }

/-- `_deserializeV1`; the byte behind the ttl is skipped. -/
def Decoder.deserializeV1 (decoder : Decoder) : Bytes → Option WirePacket
  | _ :: type :: h1 :: h0 :: ttl :: _ :: s3 :: s2 :: s1 :: s0 :: body =>
    if body.length < 56 then none
    else decoder.readLegacy type h1 h0 ttl (Bytes.toUInt32 s3 s2 s1 s0) body
  | _ => none

/-- `deserialize`. -/
def Decoder.decode (decoder : Decoder) (buffer : Bytes) : Option WirePacket :=
  if buffer.length < 6 then none
  else if buffer.head? = some 2 then
    (deserializeV2 ⟨fun _ => none, decoder.generateFlowId⟩ buffer).map Packet.wire
  else decoder.deserializeV1 buffer

/-- The type that the node looks at, `data[1]`. -/
def peekedType (data : Bytes) : Option UInt8 := data[1]?

/-- `data.subarray(26, 42)` as an identifier. -/
def peekedSrcNode (data : Bytes) : Id := stripId ((data.drop 26).take 16)

/-- `data.subarray(42, 58)` as an identifier. -/
def peekedDstNode (data : Bytes) : Id := stripId ((data.drop 42).take 16)

/-- What the constructor makes of a type. -/
def constructedType (type : UInt8) : UInt8 := if type = 0 then PacketType.data.code else type

/-- The three fields that are looked at agree with those of the packet. -/
structure PeeksAgree (data : Bytes) (w : WirePacket) : Prop where
  type : (peekedType data).map constructedType = some w.type
  srcNode : peekedSrcNode data = w.srcNode
  dstNode : peekedDstNode data = w.dstNode

variable (decoder : Decoder)

theorem decode_serialize {p : Packet} (h : p.Encodable) :
    ∃ bytes, p.serialize = some bytes ∧
      decoder.decode bytes = some { p with visitedNodes := [] }.wire := by
  obtain ⟨bytes, hbytes, -, -, hread⟩ :=
    deserialize_serialize ⟨fun _ => none, decoder.generateFlowId⟩ h
  refine ⟨bytes, hbytes, ?_⟩
  unfold deserialize at hread
  unfold Decoder.decode
  split at hread
  case isTrue => contradiction
  rename_i hlong
  rw [if_neg hlong]
  split at hread
  case isTrue hversion => rw [if_pos hversion, hread, Option.map_some]
  case isFalse => contradiction

theorem peeks_deserializeV2 {reader : Reader} {data : Bytes} {p : Packet}
    (h : deserializeV2 reader data = some p) : PeeksAgree data p.wire := by
  unfold deserializeV2 at h
  split at h
  case h_1 v type h1 h0 ttl count s3 s2 s1 s0 body =>
    split at h
    case isTrue => contradiction
    obtain ⟨length, -, rfl⟩ := Option.map_eq_some_iff.mp h
    exact ⟨rfl, rfl, rfl⟩
  case h_2 => contradiction

theorem peeks_deserializeV1 {data : Bytes} {w : WirePacket}
    (h : decoder.deserializeV1 data = some w) : PeeksAgree data w := by
  unfold Decoder.deserializeV1 at h
  split at h
  case h_1 v type h1 h0 ttl skipped s3 s2 s1 s0 body =>
    split at h
    case isTrue => contradiction
    obtain ⟨⟨route, rest⟩, -, h⟩ := Option.bind_eq_some_iff.mp h
    obtain ⟨⟨visited, tail⟩, -, h⟩ := Option.bind_eq_some_iff.mp h
    obtain ⟨length, -, rfl⟩ := Option.map_eq_some_iff.mp h
    exact ⟨rfl, rfl, rfl⟩
  case h_2 => contradiction

theorem peeks_decode {data : Bytes} {w : WirePacket} (h : decoder.decode data = some w) :
    PeeksAgree data w := by
  unfold Decoder.decode at h
  split at h
  case isTrue => contradiction
  split at h
  case isTrue =>
    obtain ⟨p, hp, rfl⟩ := Option.map_eq_some_iff.mp h
    exact peeks_deserializeV2 hp
  case isFalse => exact peeks_deserializeV1 decoder h

/-- Packets that fit the format come back as they were, and what is looked at before a packet
is read is what is read, but for a type byte of zero. -/
theorem codec_and_peeks_agree :
    (∀ p : Packet, p.type ≠ 0 → ValidId p.flowId → ShortId p.srcNode → ShortId p.dstNode →
      (∀ id ∈ p.route, ShortId id) → p.hop < 65536 → p.ttl < 256 → p.seq < 4294967296 →
      p.route.length ≤ 255 → p.payload.length < 4294967296 →
      ∃ bytes, p.serialize = some bytes ∧
        decoder.decode bytes = some { p with visitedNodes := [] }.wire) ∧
    ∀ data w, decoder.decode data = some w → PeeksAgree data w := by
  refine ⟨?_, fun data w => peeks_decode decoder⟩
  intro p htype hflow hsrc hdst hroute hhop httl hseq hcount hpayload
  have hwritable : p.writable = true :=
    Packet.writable_iff.mpr ⟨hhop, httl, by omega, hseq, hpayload⟩
  exact decode_serialize decoder ⟨htype, hflow, hsrc, hdst, hroute, hwritable⟩

/-- A packet with nothing in it but its flow. -/
def emptyPacket (payload : Bytes) : Packet :=
  { type := 1
    flowId := [102]
    seq := 0
    hop := 0
    ttl := 0
    srcNode := []
    dstNode := []
    route := []
    visitedNodes := []
    payload }

/-- A type byte of zero is read as `DATA`; a payload of 2^32 bytes cannot be written. -/
theorem zero_type_read_as_data :
    (∃ w, Decoder.decode ⟨fun _ => none, [102]⟩ (2 :: List.replicate 61 0) = some w ∧
      peekedType (2 :: List.replicate 61 0) ≠ some w.type) ∧
    (emptyPacket (List.replicate 4294967296 0)).serialize = none := by
  refine ⟨?_, ?_⟩
  · have hread : (Decoder.decode ⟨fun _ => none, [102]⟩ (2 :: List.replicate 61 0)).map
        WirePacket.type = some 1 := by
      decide +kernel
    obtain ⟨w, hw, htype⟩ := Option.map_eq_some_iff.mp hread
    refine ⟨w, hw, ?_⟩
    rw [htype]
    decide
  · have hlarge : (emptyPacket (List.replicate 4294967296 0)).writable = false := by
      rw [← Bool.not_eq_true, Packet.writable_iff]
      rintro ⟨-, -, -, -, hpayload⟩
      rw [emptyPacket, List.length_replicate] at hpayload
      exact absurd hpayload (by decide)
    rw [Packet.serialize, hlarge]
    rfl

end Meshpn.Mesh

namespace Meshpn.Mesh

open Meshpn.Lib

/-- What `length` is, and what a loop over the value finds; `none` where one of them fails. -/
def Json.listed : Json → Option (Nat × List Json)
  | .arr values => some (values.length, values)
  | .str s => some (Bytes.unitCount s, (Bytes.chars s).map .str)
  | _ => none

/-- `[...value]`. -/
def Json.spread (value : Json) : Option (List Json) := value.listed.map Prod.snd

/-- `text.padEnd(16, '\0').slice(0, 16)`, as much of it as fills sixteen bytes. -/
def padText (text : Bytes) : Bytes :=
  (Bytes.sliceUnits 16 (Bytes.chars text) ++ List.replicate 16 0).take 16

/-- The bytes of `item || ''`, which has to be text. -/
def itemBytes : Json → Option Bytes
  | .str text => some (padText text)
  | item => if item.truthy then none else some (List.replicate 16 0)

def writeItems : List Json → Option Bytes
  | [] => some []
  | item :: items =>
    (itemBytes item).bind fun bytes => (writeItems items).map (bytes ++ ·)

/-- Every field fits the bytes it is written to. -/
def WirePacket.fits (w : WirePacket) (count : Nat) : Bool :=
  w.hop < 65536 && w.ttl < 256 && count < 256 && w.seq < 4294967296 &&
    w.payload.length < 4294967296

def WirePacket.header (w : WirePacket) (count : Nat) : Bytes :=
  [2, w.type] ++ Bytes.ofUInt16 w.hop ++ [UInt8.ofNat w.ttl, UInt8.ofNat count] ++
    Bytes.ofUInt32 w.seq ++ padId w.flowId ++ padId w.srcNode ++ padId w.dstNode

/-- `serialize`; `none` where it throws. A text has fewer characters than units, and the
room that they leave stays behind the payload. -/
def WirePacket.serialize (w : WirePacket) : Option Bytes :=
  w.route.listed.bind fun (count, items) =>
    if w.fits count then
      (writeItems items).map fun ids =>
        w.header count ++ ids ++ Bytes.ofUInt32 w.payload.length ++ w.payload ++
          List.replicate (16 * (count - items.length)) 0
    else none

def WirePacket.clone (w : WirePacket) : Option WirePacket :=
  w.route.spread.map fun items => { w with route := .arr items }

/-- Where a job ends up. -/
inductive RxPath where
  | worker
  | fallback
  deriving DecidableEq, Repr

inductive RxEffect where
  /-- `_transportSendWithRetry`. -/
  | send (peerId : Id) (serialized : Bytes)
  /-- `_processExitPacket`. -/
  | exit (srcNode : Id) (payload : Bytes)
  /-- `reorderBuffer.addPacket`. -/
  | reorder (flowId : Id) (seq : Nat) (payload : Bytes)
  /-- `_handlePing`, `_handlePong` or `_handleAck`, inside a handler for their errors. -/
  | control (peerId : Id) (packet : WirePacket)

/-- What a job returns. -/
structure RxReport where
  layer : Layer
  packetMeta : WirePacket

/-- `new Packet(packetMeta)`, of the header fields only. -/
def WirePacket.meta (w : WirePacket) : WirePacket :=
  { w with type := PacketType.data.code, visitedNodes := .arr [], payload := [] }

/-- How one message ended; `escaped` if an exception left every handler. -/
structure Reception (Key : Type) where
  node : Node Key
  effects : List RxEffect
  escaped : Bool

section

variable {Key Nonce : Type}

/-- The job of `submitRx`, in a worker or not; `none` where it throws. -/
def Decoder.submitRx (decoder : Decoder) (aead : Aead Key Nonce) (data : Bytes)
    (sessionKey : Key) (packetType : PacketType) : Option RxReport :=
  (decoder.decode data).bind fun w =>
    if packetType = .data then
      (peelOnionLayer aead w.payload sessionKey).map (⟨·, w.meta⟩)
    else (aead.decrypt sessionKey w.payload).map (⟨⟨[], false, ·⟩, w.meta⟩)

def Node.hold (node : Node Key) : Reception Key := ⟨node, [], false⟩

/-- `_forwardPacket`. -/
def Node.forwardWire (node : Node Key) (original : WirePacket) (nextHop : Id)
    (newPayload : Bytes) (fromPeerId : Id) : Reception Key :=
  if nextHop = fromPeerId then node.hold
  else if nextHop = original.srcNode then node.hold
  else
    match original.clone.bind fun forward =>
        { forward with payload := newPayload, hop := forward.hop + 1 }.serialize with
    | none => ⟨node, [], true⟩
    | some serialized => ⟨node, [.send nextHop serialized], false⟩

/-- `_handleRxWorkerResult` on an onion layer past the checks. -/
def Node.handleWireLayer (node : Node Key) (packet : WirePacket) (layer : Layer)
    (peerId : Id) : Reception Key :=
  if layer.isExit then
    if node.isExit then ⟨node, [.exit packet.srcNode layer.payload], false⟩
    else if node.isClient && packet.dstNode == node.nodeId then
      ⟨node, [.reorder packet.flowId packet.seq layer.payload], false⟩
    else node.hold
  else if layer.nextHop.isEmpty then node.hold
  else node.forwardWire packet layer.nextHop layer.payload peerId

/-- `_handleRxWorkerResult`. The packet was made a moment ago and has visited no node. -/
def Node.handleReport (node : Node Key) (peerId : Id) (packetType : PacketType)
    (report : RxReport) : Reception Key :=
  let packet := report.packetMeta
  if packetType = .data then
    if packet.ttl ≤ 0 then node.hold
    else if node.processed.contains (packet.flowId, packet.seq) then node.hold
    else
      let node := { node with processed := (packet.flowId, packet.seq) :: node.processed }
      let packet := { packet with
        visitedNodes := .arr [.str node.nodeId], ttl := packet.ttl - 1 }
      if packet.ttl ≤ 0 then node.hold else node.handleWireLayer packet report.layer peerId
  else if node.isExit then ⟨node, [.exit packet.srcNode report.layer.payload], false⟩
  else if node.isClient then
    ⟨node, [.reorder packet.flowId packet.seq report.layer.payload], false⟩
  else node.hold

/-- The callback of `submitRx`, from `_onRxResult` or from `_fallbackRx`. -/
def Node.rxCallback (node : Node Key) (path : RxPath) (peerId : Id) (packetType : PacketType)
    (report : Option RxReport) : Reception Key :=
  match report with
  | none => node.hold
  | some report =>
    let reception := node.handleReport peerId packetType report
    match path with
    | .worker => reception
    | .fallback => { reception with escaped := false }

/-- The relay of `_handleDirectDataPacket`. -/
def Node.relayDirect (node : Node Key) (packet : WirePacket) : Reception Key :=
  match packet.serialize with
  | none => ⟨node, [], true⟩
  | some serialized => ⟨node, [.send packet.dstNode serialized], false⟩

/-- The `DATA_DIRECT` branch. A packet for another node is relayed as it is. -/
def Node.receiveDirect (aead : Aead Key Nonce) (decoder : Decoder) (path : RxPath)
    (node : Node Key) (peerId : Id) (data : Bytes) : Reception Key :=
  if 58 ≤ data.length ∧ peekedDstNode data ≠ node.nodeId then
    match decoder.decode data with
    | none => node.hold
    | some packet => node.relayDirect packet
  else if 42 ≤ data.length ∧ peekedSrcNode data ≠ [] then
    match node.sessionKey (peekedSrcNode data) with
    | none => node.hold
    | some key =>
      node.rxCallback path peerId .dataDirect (decoder.submitRx aead data key .dataDirect)
  else node.hold

/-- The other packet types. -/
def Node.receiveControl (decoder : Decoder) (node : Node Key) (peerId : Id) (data : Bytes) :
    Reception Key :=
  match decoder.decode data with
  | none => node.hold
  | some packet =>
    if packet.type = PacketType.ping.code ∨ packet.type = PacketType.pong.code ∨
        packet.type = PacketType.ack.code then
      ⟨node, [.control peerId packet], false⟩
    else node.hold

/-- `_processIncomingMessage`, up to the end of the job it submits. -/
def Node.receive (aead : Aead Key Nonce) (decoder : Decoder) (path : RxPath) (node : Node Key)
    (peerId : Id) (data : Bytes) : Reception Key :=
  if data.length < 2 then node.hold
  else if peekedType data = some PacketType.data.code then
    match node.sessionKey peerId with
    | none => node.hold
    | some key => node.rxCallback path peerId .data (decoder.submitRx aead data key .data)
  else if peekedType data = some PacketType.dataDirect.code then
    node.receiveDirect aead decoder path peerId data
  else node.receiveControl decoder peerId data

end

end Meshpn.Mesh

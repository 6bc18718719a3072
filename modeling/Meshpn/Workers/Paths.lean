import Meshpn.Mesh.Receive
import Meshpn.Workers.Pipeline

/-!
What a job of the pipeline computes, in a worker (`tx-worker.js`, `rx-worker.js`) and on the
main thread (`_fallbackTx`, `_fallbackRx`). A worker has its own nonces and its own copy of
`packet.js`, whose flow ids are generated apart from those of the main thread.
-/

namespace Meshpn.Workers

open Meshpn.Lib Meshpn.Mesh

/-- What one job takes from chance and from its copy of `packet.js`. -/
structure Seed (Nonce : Type) where
  nonces : Nat → Nonce
  generateFlowId : Id

/-- `packetMeta` as `submitTx` is given it: an empty identifier and a number of zero stand for
a field that is not there. -/
structure TxMeta where
  type : UInt8
  flowId : Id
  seq : Nat
  hop : Nat
  ttl : Option Nat
  srcNode : Id
  dstNode : Id
  route : List Id
  visitedNodes : List Id

/-- What `submitTx` is given. -/
structure TxJob (Key : Type) where
  payload : Bytes
  routeWithKeys : List (Id × Key)
  packetMeta : TxMeta
  directMode : Bool

structure TxResult where
  serialized : Bytes
  nextHop : Option Id
  payloadLen : Nat
  deriving DecidableEq

/-- What `submitRx` is given. -/
structure RxJob (Key : Type) where
  data : Bytes
  sessionKey : Key
  peerId : Id
  packetType : PacketType

/-- What a receive worker posts, without the number of the job. -/
inductive RxMessage where
  | error
  | passthrough (peerId : Id) (data : Bytes)
  | packet (peerId : Id) (packetType : PacketType) (payload : Bytes)
      (layer : Option (Bool × Id)) (packetMeta : WirePacket)

/-- What the callback of `submitRx` gets; `layer` is `isExit` with `nextHop`, which only an
onion packet has. -/
inductive Received where
  | passthrough (data : Bytes) (peerId : Id)
  | packet (peerId : Id) (packetType : PacketType) (payload : Bytes)
      (layer : Option (Bool × Id)) (packetMeta : WirePacket)

def newPacket (generateFlowId : Id) (packetMeta : TxMeta) (payload : Bytes) : Packet :=
  { type := constructedType packetMeta.type
    flowId := if packetMeta.flowId.isEmpty then generateFlowId else packetMeta.flowId
    seq := packetMeta.seq
    hop := packetMeta.hop
    ttl := packetMeta.ttl.getD defaultTtl
    srcNode := packetMeta.srcNode
    dstNode := packetMeta.dstNode
    route := packetMeta.route
    visitedNodes := packetMeta.visitedNodes
    payload }

section

variable {Key Nonce : Type} (aead : Aead Key Nonce)

/-- The packet of a job, which both paths build alike. -/
def TxJob.packet (job : TxJob Key) (seed : Seed Nonce) : Packet :=
  newPacket seed.generateFlowId job.packetMeta
    (encryptTx aead seed.nonces job.payload job.routeWithKeys job.directMode)

/-- The handler of a send worker. The keys travel as copies. -/
def txWorker (seed : Seed Nonce) (job : TxJob Key) : Option TxResult :=
  let keys := job.routeWithKeys.map fun (nodeId, sessionKey) => (nodeId, sessionKey)
  (TxJob.packet aead { job with routeWithKeys := keys } seed).serialize.map fun serialized =>
    ⟨serialized, job.packetMeta.route.head?, job.payload.length⟩

/-- The job of `_fallbackTx`. -/
def fallbackTx (seed : Seed Nonce) (job : TxJob Key) : Option TxResult :=
  (job.packet aead seed).serialize.map fun serialized =>
    ⟨serialized, job.packetMeta.route.head?, job.payload.length⟩

/-- The handler of a receive worker. -/
def rxWorker (decoder : Decoder) (job : RxJob Key) : RxMessage :=
  let posted :=
    if job.packetType = .data then
      (decoder.decode job.data).bind fun packet =>
        (peelOnionLayer aead packet.payload job.sessionKey).map fun layer =>
          RxMessage.packet job.peerId .data layer.payload (some (layer.isExit, layer.nextHop))
            packet.meta
    else if job.packetType = .dataDirect then
      (decoder.decode job.data).bind fun packet =>
        (aead.decrypt job.sessionKey packet.payload).map fun payload =>
          RxMessage.packet job.peerId .dataDirect payload none packet.meta
    else some (.passthrough job.peerId job.data)
  posted.getD .error

/-- What `_onRxResult` calls the callback with; `none` stands for the error. -/
def onRxResult : RxMessage → Option Received
  | .error => none
  | .passthrough peerId data => some (.passthrough data peerId)
  | .packet peerId packetType payload layer packetMeta =>
    some (.packet peerId packetType payload (if packetType = .data then layer else none)
      packetMeta)

/-- The job of `_fallbackRx`. The packet is read whatever its type is. -/
def fallbackRx (decoder : Decoder) (job : RxJob Key) : Option Received :=
  (decoder.decode job.data).bind fun packet =>
    if job.packetType = .data then
      (peelOnionLayer aead packet.payload job.sessionKey).map fun layer =>
        .packet job.peerId job.packetType layer.payload (some (layer.isExit, layer.nextHop))
          packet.meta
    else if job.packetType = .dataDirect then
      (aead.decrypt job.sessionKey packet.payload).map fun payload =>
        .packet job.peerId job.packetType payload none packet.meta
    else some (.passthrough job.data job.peerId)

/-- The jobs of a node's pipeline; `parse` is `JSON.parse`. -/
def nodeJobs (parse : Bytes → Option Json) :
    Jobs (Seed Nonce) (TxJob Key ⊕ RxJob Key) (TxResult ⊕ Received) where
  worker := fun _ seed input =>
    match input with
    | .inl job => (txWorker aead seed job).map .inl
    | .inr job => (onRxResult (rxWorker aead ⟨parse, seed.generateFlowId⟩ job)).map .inr
  fallback := fun _ seed input =>
    match input with
    | .inl job => (fallbackTx aead seed job).map .inl
    | .inr job => (fallbackRx aead ⟨parse, seed.generateFlowId⟩ job).map .inr

end

/-- The flow id on the wire. -/
def wireFlowId (data : Bytes) : Id := stripId ((data.drop 10).take 16)

/-- The packet with another flow id for the one it lacks. -/
def WirePacket.named (generated : Id) (w : WirePacket) : WirePacket :=
  { w with flowId := if w.flowId.isEmpty then generated else w.flowId }

section

variable {parse : Bytes → Option Json} {data : Bytes} {generated : Id}

theorem decode_wireFlowId {w : WirePacket} (h : Decoder.decode ⟨parse, []⟩ data = some w) :
    w.flowId = wireFlowId data := by
  have hempty : ∀ id : Id, (if id.isEmpty then [] else id) = id := by
    intro id
    cases id with
    | nil => rfl
    | cons head tail => rfl
  unfold Decoder.decode at h
  split at h
  case isTrue => contradiction
  split at h
  case isTrue =>
    obtain ⟨p, hp, rfl⟩ := Option.map_eq_some_iff.mp h
    unfold deserializeV2 at hp
    split at hp
    case h_2 => contradiction
    rename_i v type h1 h0 ttl count s3 s2 s1 s0 body
    split at hp
    case isTrue => contradiction
    obtain ⟨length, -, rfl⟩ := Option.map_eq_some_iff.mp hp
    exact hempty _
  case isFalse =>
    unfold Decoder.deserializeV1 at h
    split at h
    case h_2 => contradiction
    rename_i v type h1 h0 ttl skipped s3 s2 s1 s0 body
    split at h
    case isTrue => contradiction
    obtain ⟨⟨route, rest⟩, -, h⟩ := Option.bind_eq_some_iff.mp h
    obtain ⟨⟨visited, tail⟩, -, h⟩ := Option.bind_eq_some_iff.mp h
    obtain ⟨length, -, rfl⟩ := Option.map_eq_some_iff.mp h
    exact hempty _

theorem decode_named : Decoder.decode ⟨parse, generated⟩ data =
    (Decoder.decode ⟨parse, []⟩ data).map (WirePacket.named generated) := by
  unfold Decoder.decode
  split
  case isTrue => rfl
  split
  case isTrue =>
    unfold deserializeV2
    split
    case h_2 => rfl
    rename_i v type h1 h0 ttl count s3 s2 s1 s0 body hlong hversion
    split
    case isTrue => rfl
    unfold readBody
    rw [Option.map_map, Option.map_map, Option.map_map]
    refine congrArg (Option.map · _) (funext fun length => ?_)
    cases stripId (body.take 16) <;>
      simp [Packet.wire, WirePacket.named]
  case isFalse =>
    unfold Decoder.deserializeV1
    split
    case h_2 => rfl
    rename_i v type h1 h0 ttl skipped s3 s2 s1 s0 body hlong hversion
    split
    case isTrue => rfl
    unfold Decoder.readLegacy
    rw [Option.map_bind]
    refine congrArg (Option.bind _) (funext fun route => ?_)
    rw [Function.comp_apply, Option.map_bind]
    refine congrArg (Option.bind _) (funext fun visited => ?_)
    rw [Function.comp_apply, Option.map_map]
    refine congrArg (Option.map · _) (funext fun length => ?_)
    cases stripId (body.take 16) <;>
      simp [WirePacket.named]

/-- What is handed over is named like the packet. -/
def Received.named (generated : Id) : Received → Received
  | .passthrough data peerId => .passthrough data peerId
  | .packet peerId packetType payload layer packetMeta =>
    .packet peerId packetType payload layer (WirePacket.named generated packetMeta)

variable {Key Nonce : Type} {aead : Aead Key Nonce} {job : RxJob Key}

/-- An onion packet or a direct one. -/
def RxJob.carriesData (job : RxJob Key) : Bool :=
  job.packetType == .data || job.packetType == .dataDirect

/-- What is inside opens under the key. -/
def RxJob.opensAs (aead : Aead Key Nonce) (job : RxJob Key) (packet : WirePacket) : Bool :=
  if job.packetType = .data then (peelOnionLayer aead packet.payload job.sessionKey).isSome
  else (aead.decrypt job.sessionKey packet.payload).isSome

/-- The packet names its flow, where it can be read and opened; a packet that carries no data
can at least be read. -/
def RxJob.Settled (aead : Aead Key Nonce) (parse : Bytes → Option Json) (job : RxJob Key) :
    Prop :=
  if job.carriesData then
    ∀ packet, Decoder.decode ⟨parse, []⟩ job.data = some packet →
      job.opensAs aead packet = true → wireFlowId job.data ≠ []
  else ∃ packet, Decoder.decode ⟨parse, []⟩ job.data = some packet

theorem onRxResult_rxWorker (decoder : Decoder) (h : job.carriesData = true) :
    onRxResult (rxWorker aead decoder job) = fallbackRx aead decoder job := by
  unfold rxWorker fallbackRx
  by_cases hdata : job.packetType = .data
  case pos =>
    simp only [hdata, if_true]
    rcases decoder.decode job.data with _ | packet
    · rfl
    rw [Option.bind_some, Option.bind_some]
    cases peelOnionLayer aead packet.payload job.sessionKey with
    | none => rfl
    | some layer => rfl
  case neg =>
    have hdirect : job.packetType = .dataDirect := by
      simpa [RxJob.carriesData, hdata] using h
    simp only [hdirect, reduceCtorEq, if_false, if_true]
    rcases decoder.decode job.data with _ | packet
    · rfl
    rw [Option.bind_some, Option.bind_some]
    cases aead.decrypt job.sessionKey packet.payload with
    | none => rfl
    | some payload => rfl

theorem fallbackRx_named (generated : Id) :
    fallbackRx aead ⟨parse, generated⟩ job =
      (fallbackRx aead ⟨parse, []⟩ job).map (Received.named generated) := by
  unfold fallbackRx
  rw [decode_named]
  rcases Decoder.decode ⟨parse, []⟩ job.data with _ | packet
  · rfl
  rw [Option.map_some, Option.bind_some, Option.bind_some]
  split
  case isTrue =>
    rw [Option.map_map]
    rfl
  case isFalse =>
    split
    case isTrue =>
      rw [Option.map_map]
      rfl
    case isFalse => rfl

theorem fallbackRx_carries (h : job.carriesData = true) :
    (fallbackRx aead ⟨parse, []⟩ job = none ∧
      ∀ packet, Decoder.decode ⟨parse, []⟩ job.data = some packet →
        job.opensAs aead packet = false) ∨
    ∃ packet payload layer, Decoder.decode ⟨parse, []⟩ job.data = some packet ∧
      job.opensAs aead packet = true ∧ fallbackRx aead ⟨parse, []⟩ job =
        some (.packet job.peerId job.packetType payload layer packet.meta) := by
  unfold fallbackRx
  rcases Decoder.decode ⟨parse, []⟩ job.data with _ | packet
  · exact .inl ⟨rfl, fun _ hread => by cases hread⟩
  rw [Option.bind_some]
  unfold RxJob.opensAs
  by_cases hdata : job.packetType = .data
  case pos =>
    simp only [hdata, if_true]
    cases hpeel : peelOnionLayer aead packet.payload job.sessionKey with
    | none =>
      refine .inl ⟨rfl, fun other hread => ?_⟩
      rw [← Option.some.inj hread, hpeel]
      rfl
    | some layer => exact .inr ⟨packet, _, _, rfl, by rw [hpeel]; rfl, rfl⟩
  case neg =>
    have hdirect : job.packetType = .dataDirect := by
      simpa [RxJob.carriesData, hdata] using h
    simp only [hdirect, reduceCtorEq, if_false, if_true]
    cases hopen : aead.decrypt job.sessionKey packet.payload with
    | none =>
      refine .inl ⟨rfl, fun other hread => ?_⟩
      rw [← Option.some.inj hread, hopen]
      rfl
    | some payload => exact .inr ⟨packet, _, _, rfl, by rw [hopen]; rfl, rfl⟩

/-- A worker and the main thread hand over the same, whatever flow ids they generate, if and
only if none is needed and the packet is read where only one of them reads it. -/
theorem rx_paths_agree : (∀ generated other : Id,
    onRxResult (rxWorker aead ⟨parse, generated⟩ job) = fallbackRx aead ⟨parse, other⟩ job) ↔
      job.Settled aead parse := by
  unfold RxJob.Settled
  split
  case isTrue hcarries =>
    have hworker : ∀ generated, onRxResult (rxWorker aead ⟨parse, generated⟩ job) =
        (fallbackRx aead ⟨parse, []⟩ job).map (Received.named generated) := by
      intro generated
      rw [onRxResult_rxWorker _ hcarries, fallbackRx_named]
    rcases @fallbackRx_carries parse Key Nonce aead job hcarries with
      ⟨hnone, hshut⟩ | ⟨packet, payload, layer, hread, hopens, hmade⟩
    · constructor
      · intro _ packet hread hopens
        rw [hshut packet hread] at hopens
        cases hopens
      · intro _ generated other
        rw [hworker, fallbackRx_named other, hnone]
        rfl
    · have hflow := decode_wireFlowId hread
      constructor
      · intro hagree packet' hread' _ hempty
        have hclash := hagree [1] [2]
        rw [hworker, fallbackRx_named [2], hmade] at hclash
        simp [Received.named, WirePacket.named, WirePacket.meta, hflow, hempty] at hclash
      · intro hnamed generated other
        have hpresent : packet.flowId.isEmpty = false := by
          rw [hflow, List.isEmpty_eq_false_iff]
          exact hnamed packet hread hopens
        rw [hworker, fallbackRx_named other, hmade]
        simp [Received.named, WirePacket.named, WirePacket.meta, hpresent]
  case isFalse hplain =>
    have hdata : job.packetType ≠ .data := fun h => hplain (by simp [RxJob.carriesData, h])
    have hdirect : job.packetType ≠ .dataDirect := fun h =>
      hplain (by simp [RxJob.carriesData, h])
    have hworker : ∀ generated, onRxResult (rxWorker aead ⟨parse, generated⟩ job) =
        some (.passthrough job.data job.peerId) := by
      intro generated
      unfold rxWorker
      simp only [hdata, hdirect, if_false]
      rfl
    have hfallback : fallbackRx aead ⟨parse, []⟩ job =
        (Decoder.decode ⟨parse, []⟩ job.data).map fun _ =>
          .passthrough job.data job.peerId := by
      unfold fallbackRx
      simp only [hdata, hdirect, if_false]
      cases Decoder.decode ⟨parse, []⟩ job.data with
      | none => rfl
      | some packet => rfl
    constructor
    · intro hagree
      have hsame := hagree [] []
      rw [hworker, hfallback] at hsame
      obtain ⟨packet, hread, -⟩ := Option.map_eq_some_iff.mp hsame.symm
      exact ⟨packet, hread⟩
    · rintro ⟨packet, hread⟩ generated other
      rw [hworker, fallbackRx_named other, hfallback, hread]
      rfl

end

/-- The layers of an onion opened one after the other. -/
def openLayers {Key Nonce : Type} (aead : Aead Key Nonce) :
    List (Id × Key) → Bytes → Option Bytes
  | [], bytes => some bytes
  | (_, sessionKey) :: rest, bytes =>
    (peelOnionLayer aead bytes sessionKey).bind fun layer => openLayers aead rest layer.payload

/-- What the nodes of the route make of an encrypted payload. -/
def openTx {Key Nonce : Type} (aead : Aead Key Nonce) (keys : List (Id × Key))
    (directMode : Bool) (bytes : Bytes) : Option Bytes :=
  match directMode, keys with
  | true, [(_, key)] => aead.decrypt key bytes
  | _, _ => openLayers aead keys bytes

section

variable {Key Nonce : Type} (aead : Aead Key Nonce)

theorem decodeLayer_payload (nextHop : Id) (isExit : Bool) (payload : Bytes) :
    (decodeLayer (encodeLayer nextHop isExit payload)).map Layer.payload = some payload := by
  cases hnext : nextHop.isEmpty with
  | true =>
    have hflag : (layerFlags nextHop isExit &&& flagHasNextHop != 0) = false := by
      unfold layerFlags
      rw [hnext]
      cases isExit <;> decide
    simp only [encodeLayer, decodeLayer, hnext, if_true, hflag, Bool.false_eq_true, if_false,
      List.nil_append, Option.map_some]
  | false =>
    have hflag : (layerFlags nextHop isExit &&& flagHasNextHop != 0) = true := by
      unfold layerFlags
      rw [hnext]
      cases isExit <;> decide
    simp only [encodeLayer, decodeLayer, hnext, if_true, hflag, Bool.false_eq_true, if_false,
      List.drop_left' (padId_length nextHop), Option.map_some]

theorem openLayers_create (nonces : Nat → Nonce) (payload : Bytes) (keys : List (Id × Key)) :
    openLayers aead keys (createOnionPacket aead nonces payload keys) = some payload := by
  induction keys with
  | nil => rfl
  | cons layer rest ih =>
    obtain ⟨nodeId, sessionKey⟩ := layer
    obtain ⟨opened, hopened, hpayload⟩ := Option.map_eq_some_iff.mp
      (decodeLayer_payload (firstNode rest) rest.isEmpty
        (createOnionPacket aead nonces payload rest))
    unfold openLayers
    rw [createOnionPacket_cons, peelOnionLayer, aead.decrypt_encrypt, Option.bind_some, hopened,
      Option.bind_some, hpayload]
    exact ih

theorem openTx_encryptTx (nonces : Nat → Nonce) (payload : Bytes) (keys : List (Id × Key))
    (directMode : Bool) :
    openTx aead keys directMode (encryptTx aead nonces payload keys directMode) =
      some payload := by
  rcases directMode with _ | _
  · exact openLayers_create aead nonces payload keys
  match keys with
  | [] => rfl
  | [(_, key)] => exact aead.decrypt_encrypt _ _ _
  | first :: second :: rest =>
    exact openLayers_create aead nonces payload (first :: second :: rest)

theorem createOnionPacket_length_same (nonces others : Nat → Nonce) (payload : Bytes)
    (keys : List (Id × Key)) :
    (createOnionPacket aead nonces payload keys).length =
      (createOnionPacket aead others payload keys).length := by
  induction keys with
  | nil => rfl
  | cons layer rest ih =>
    obtain ⟨nodeId, sessionKey⟩ := layer
    rw [createOnionPacket_cons, createOnionPacket_cons, aead.encrypt_length, aead.encrypt_length]
    simp only [encodeLayer, List.length_cons, List.length_append, ih]

theorem encryptTx_length_same (nonces others : Nat → Nonce) (payload : Bytes)
    (keys : List (Id × Key)) (directMode : Bool) :
    (encryptTx aead nonces payload keys directMode).length =
      (encryptTx aead others payload keys directMode).length := by
  unfold encryptTx
  split
  case h_1 => rw [aead.encrypt_length, aead.encrypt_length]
  case h_2 => exact createOnionPacket_length_same aead nonces others payload keys

/-- Two packets that differ in the flow id and the encryption of one payload. -/
structure SamePacket (keys : List (Id × Key)) (directMode : Bool) (payload : Bytes)
    (p q : Packet) : Prop where
  header : q = { p with flowId := q.flowId, payload := q.payload }
  length : q.payload.length = p.payload.length
  left : openTx aead keys directMode p.payload = some payload
  right : openTx aead keys directMode q.payload = some payload

theorem packets_same (job : TxJob Key) (seed other : Seed Nonce) :
    SamePacket aead job.routeWithKeys job.directMode job.payload (job.packet aead seed)
      (job.packet aead other) where
  header := rfl
  length := encryptTx_length_same aead _ _ _ _ _
  left := openTx_encryptTx aead _ _ _ _
  right := openTx_encryptTx aead _ _ _ _

/-- Either both paths fail, or their packets are the same but for the flow id and the nonces. -/
def TxAgree (job : TxJob Key) (made other : Option TxResult) : Prop :=
  made = none ∧ other = none ∨
    ∃ r r' p q, made = some r ∧ other = some r' ∧ p.serialize = some r.serialized ∧
      q.serialize = some r'.serialized ∧ r'.nextHop = r.nextHop ∧
      r'.payloadLen = r.payloadLen ∧
      SamePacket aead job.routeWithKeys job.directMode job.payload p q

theorem tx_paths_agree (job : TxJob Key) (seed other : Seed Nonce) :
    TxAgree aead job (txWorker aead seed job) (fallbackTx aead other job) := by
  have hkeys : job.routeWithKeys.map (fun (nodeId, sessionKey) => (nodeId, sessionKey)) =
      job.routeWithKeys := List.map_id _
  have hsame := packets_same aead job seed other
  have hwritable : (job.packet aead other).writable = (job.packet aead seed).writable := by
    rw [hsame.header]
    simp only [Packet.writable, hsame.length]
  unfold txWorker fallbackTx
  dsimp only
  rw [hkeys]
  unfold Packet.serialize
  rw [hwritable]
  rcases hfits : (job.packet aead seed).writable with _ | _
  · exact .inl ⟨rfl, rfl⟩
  refine .inr ⟨_, _, job.packet aead seed, job.packet aead other, rfl, rfl, ?_, ?_, rfl, rfl,
    hsame⟩
  · rw [Packet.serialize, hfits]
    rfl
  · rw [Packet.serialize, hwritable, hfits]
    rfl

end

end Meshpn.Workers

import Meshpn.Mesh.Receive
import Meshpn.Mesh.Delivery

/-!
Which messages make an exception leave the receive path. A relay in a worker's
callback fails where the hop no longer fits its field, or where the route of a
version 1 packet cannot be copied and written; a direct relay fails where its route
cannot be written. Nothing else fails.
-/

namespace Meshpn.Mesh

open Meshpn.Lib

def Json.Plain (route : Json) : Prop :=
  ∃ count items, route.listed = some (count, items) ∧ count < 256 ∧
    ∀ item ∈ items, (itemBytes item).isSome

def Json.Copies (route : Json) : Prop :=
  ∃ items, route.spread = some items ∧ (Json.arr items).Plain

theorem writeItems_isSome {items : List Json} :
    (writeItems items).isSome ↔ ∀ item ∈ items, (itemBytes item).isSome := by
  induction items with
  | nil => simp [writeItems]
  | cons item items ih =>
    simp only [List.forall_mem_cons, ← ih, writeItems]
    cases itemBytes item with
    | none => simp
    | some bytes => simp

/-- A packet whose numbers fit their fields, as every packet does that was read. -/
structure WirePacket.InRange (w : WirePacket) : Prop where
  hop : w.hop < 65536
  ttl : w.ttl < 256
  seq : w.seq < 4294967296
  payload : w.payload.length < 4294967296

variable {w : WirePacket} {node : Node Key} {data : Bytes}

theorem serialize_isSome (h : w.InRange) :
    w.serialize.isSome ↔ w.route.Plain := by
  have hfits : ∀ count, w.fits count = true ↔ count < 256 := fun count => by
    simp [WirePacket.fits, h.hop, h.ttl, h.seq, h.payload]
  unfold WirePacket.serialize Json.Plain
  rcases w.route.listed with _ | listed
  · simp
  obtain ⟨count, items⟩ := listed
  simp only [Option.bind_some, Option.some.injEq, Prod.mk.injEq]
  constructor
  · intro hsome
    split at hsome
    case isTrue hcount =>
      rw [Option.isSome_map, writeItems_isSome] at hsome
      exact ⟨count, items, ⟨rfl, rfl⟩, (hfits count).mp hcount, hsome⟩
    case isFalse => cases hsome
  · rintro ⟨count, items, ⟨rfl, rfl⟩, hcount, hitems⟩
    rw [if_pos ((hfits _).mpr hcount), Option.isSome_map, writeItems_isSome]
    exact hitems

/-- What `_forwardPacket` writes. -/
def WirePacket.forwarded (w : WirePacket) (payload : Bytes) : Option Bytes :=
  w.clone.bind fun forward => { forward with payload, hop := forward.hop + 1 }.serialize

theorem forwarded_isSome (h : w.InRange) {payload : Bytes}
    (hpayload : payload.length < 4294967296) :
    (w.forwarded payload).isSome ↔ w.hop + 1 < 65536 ∧ w.route.Copies := by
  unfold WirePacket.forwarded WirePacket.clone Json.Copies
  rcases w.route.spread with _ | items
  · simp
  simp only [Option.map_some, Option.bind_some, Option.some.injEq, exists_eq_left']
  by_cases hhop : w.hop + 1 < 65536
  case pos =>
    have hrange : WirePacket.InRange
        { w with route := .arr items, payload, hop := w.hop + 1 } :=
      ⟨hhop, h.ttl, h.seq, hpayload⟩
    rw [serialize_isSome hrange]
    simp [hhop]
  case neg =>
    have hwide : ¬w.hop + 1 < 65536 := hhop
    simp [WirePacket.serialize, Json.listed, WirePacket.fits, hwide]

theorem readUInt32_lt {bytes : Bytes} {n : Nat} (h : Bytes.readUInt32 bytes = some n) :
    n < 4294967296 := by
  unfold Bytes.readUInt32 at h
  split at h
  case h_1 b3 b2 b1 b0 rest =>
    cases h
    have hhigh := Bytes.toUInt16_lt b3 b2
    have hlow := Bytes.toUInt16_lt b1 b0
    unfold Bytes.toUInt32
    omega
  case h_2 => cases h

theorem toUInt32_lt (b3 b2 b1 b0 : UInt8) : Bytes.toUInt32 b3 b2 b1 b0 < 4294967296 := by
  have hhigh := Bytes.toUInt16_lt b3 b2
  have hlow := Bytes.toUInt16_lt b1 b0
  unfold Bytes.toUInt32
  omega

theorem deserializeV2_inRange {reader : Reader} {p : Packet}
    (h : deserializeV2 reader data = some p) : p.wire.InRange := by
  unfold deserializeV2 at h
  split at h
  case h_1 v type h1 h0 ttl count s3 s2 s1 s0 body =>
    split at h
    case isTrue => contradiction
    obtain ⟨length, hlength, rfl⟩ := Option.map_eq_some_iff.mp h
    have hbound := readUInt32_lt hlength
    refine ⟨Bytes.toUInt16_lt h1 h0, ttl.toNat_lt, toUInt32_lt s3 s2 s1 s0, ?_⟩
    simp only [Packet.wire, List.length_take]
    omega
  case h_2 => contradiction

theorem deserializeV1_inRange {decoder : Decoder}
    (h : decoder.deserializeV1 data = some w) : w.InRange := by
  unfold Decoder.deserializeV1 at h
  split at h
  case h_1 v type h1 h0 ttl skipped s3 s2 s1 s0 body =>
    split at h
    case isTrue => contradiction
    obtain ⟨⟨route, rest⟩, -, h⟩ := Option.bind_eq_some_iff.mp h
    obtain ⟨⟨visited, tail⟩, -, h⟩ := Option.bind_eq_some_iff.mp h
    obtain ⟨length, hlength, rfl⟩ := Option.map_eq_some_iff.mp h
    have hbound := readUInt32_lt hlength
    refine ⟨Bytes.toUInt16_lt h1 h0, ttl.toNat_lt, toUInt32_lt s3 s2 s1 s0, ?_⟩
    simp only [List.length_take]
    omega
  case h_2 => contradiction

theorem decode_inRange {decoder : Decoder}
    (h : decoder.decode data = some w) : w.InRange := by
  unfold Decoder.decode at h
  split at h
  case isTrue => contradiction
  split at h
  case isTrue =>
    obtain ⟨p, hp, rfl⟩ := Option.map_eq_some_iff.mp h
    exact deserializeV2_inRange hp
  case isFalse => exact deserializeV1_inRange h

variable {Key Nonce : Type} {aead : Aead Key Nonce} {decoder : Decoder}

/-- The packet is to be passed on: it has time left, was not seen before, and its layer
names another node than the peer it came from and its source. -/
def Node.Relays (node : Node Key) (peerId : Id) (w : WirePacket) (layer : Layer) : Prop :=
  2 ≤ w.ttl ∧ (w.flowId, w.seq) ∉ node.processed ∧ layer.isExit = false ∧
    layer.nextHop ≠ [] ∧ layer.nextHop ≠ peerId ∧ layer.nextHop ≠ w.srcNode

theorem forwardWire_escaped {nextHop peerId : Id}
    {payload : Bytes} :
    (node.forwardWire w nextHop payload peerId).escaped = true ↔
      nextHop ≠ peerId ∧ nextHop ≠ w.srcNode ∧ ¬(w.forwarded payload).isSome := by
  unfold Node.forwardWire
  split
  case isTrue hback => simp [Node.hold, hback]
  rename_i hback
  split
  case isTrue hsource => simp [Node.hold, hsource]
  rename_i hsource
  unfold WirePacket.forwarded
  split
  case h_1 hnone => simp [hback, hsource, hnone]
  case h_2 serialized hsome => simp [hback, hsource, hsome]

theorem handleWireLayer_escaped {layer : Layer}
    {peerId : Id} :
    (node.handleWireLayer w layer peerId).escaped = true ↔
      layer.isExit = false ∧ layer.nextHop ≠ [] ∧
        (node.forwardWire w layer.nextHop layer.payload peerId).escaped = true := by
  unfold Node.handleWireLayer
  cases hexit : layer.isExit with
  | true =>
    simp only [if_true, Bool.true_eq_false, false_and, iff_false, Bool.not_eq_true]
    split
    case isTrue => rfl
    case isFalse => split <;> rfl
  | false =>
    simp only [Bool.false_eq_true, if_false, true_and]
    cases hnext : layer.nextHop with
    | nil => simp [Node.hold]
    | cons first rest => simp

theorem handleReport_escaped {peerId : Id} {report : RxReport} :
    (node.handleReport peerId .data report).escaped = true ↔
      node.Relays peerId report.packetMeta report.layer ∧
        ¬(WirePacket.forwarded { report.packetMeta with
          visitedNodes := .arr [.str node.nodeId]
          ttl := report.packetMeta.ttl - 1 } report.layer.payload).isSome := by
  unfold Node.handleReport Node.Relays
  simp only [if_true]
  split
  case isTrue hold =>
    have hdead : ¬2 ≤ report.packetMeta.ttl := by omega
    simp [Node.hold, hdead]
  split
  case isTrue hseen =>
    have hknown : (report.packetMeta.flowId, report.packetMeta.seq) ∈ node.processed := by
      simpa using hseen
    simp [Node.hold, hknown]
  case isFalse hseen =>
    have hunseen : (report.packetMeta.flowId, report.packetMeta.seq) ∉ node.processed := by
      simpa using hseen
    split
    case isTrue hlast =>
      have hdead : ¬2 ≤ report.packetMeta.ttl := by omega
      simp [Node.hold, hdead]
    case isFalse hlast =>
      have halive : 2 ≤ report.packetMeta.ttl := by omega
      rw [handleWireLayer_escaped, forwardWire_escaped]
      simp only [halive, hunseen, not_false_eq_true, true_and, and_assoc]

theorem handleReport_direct {node : Node Key} {peerId : Id} {report : RxReport} :
    (node.handleReport peerId .dataDirect report).escaped = false := by
  have htype : ¬PacketType.dataDirect = PacketType.data := by decide
  unfold Node.handleReport
  simp only [if_neg htype]
  split
  case isTrue => rfl
  case isFalse => split <;> rfl

/-- The onion layer that the node finds in a `DATA` packet of the peer. -/
def Node.Opens (aead : Aead Key Nonce) (decoder : Decoder) (node : Node Key) (peerId : Id)
    (data : Bytes) (w : WirePacket) (layer : Layer) : Prop :=
  peekedType data = some PacketType.data.code ∧ decoder.decode data = some w ∧
    (node.sessionKey peerId).bind (peelOnionLayer aead w.payload) = some layer

def Node.RelaysDirect (decoder : Decoder) (node : Node Key) (data : Bytes) (w : WirePacket) :
    Prop :=
  peekedType data = some PacketType.dataDirect.code ∧ 58 ≤ data.length ∧
    peekedDstNode data ≠ node.nodeId ∧ decoder.decode data = some w

/-- A packet to relay out of a worker has hops to spare and a route that can be copied; a
packet to relay directly has a route that can be written. -/
structure Node.Harmless (aead : Aead Key Nonce) (decoder : Decoder) (path : RxPath)
    (node : Node Key) (peerId : Id) (data : Bytes) : Prop where
  onion : path = .worker → ∀ w layer, node.Opens aead decoder peerId data w layer →
    node.Relays peerId w layer → w.hop + 1 < 65536 ∧ w.route.Copies
  direct : ∀ w, node.RelaysDirect decoder data w → w.route.Plain

theorem peelOnionLayer_shorter {message : Bytes} {key : Key} {layer : Layer}
    (hdecrypt : ∀ key data plain, aead.decrypt key data = some plain →
      plain.length ≤ data.length)
    (h : peelOnionLayer aead message key = some layer) :
    layer.payload.length ≤ message.length := by
  obtain ⟨plain, hplain, hlayer⟩ := Option.bind_eq_some_iff.mp h
  have hshort := hdecrypt key message plain hplain
  rcases plain with _ | ⟨flags, rest⟩
  · cases hlayer
  cases hlayer
  simp only [List.length_cons] at hshort
  dsimp only
  split
  case isTrue =>
    rw [List.length_drop]
    omega
  case isFalse => omega

section

variable {node : Node Key} {path : RxPath} {peerId : Id} {data : Bytes}

theorem submitRx_data {key : Key} {report : RxReport} :
    decoder.submitRx aead data key .data = some report ↔
      ∃ w, decoder.decode data = some w ∧
        peelOnionLayer aead w.payload key = some report.layer ∧ report.packetMeta = w.meta := by
  unfold Decoder.submitRx
  simp only [if_true, Option.bind_eq_some_iff, Option.map_eq_some_iff]
  constructor
  · rintro ⟨w, hw, layer, hlayer, rfl⟩
    exact ⟨w, hw, hlayer, rfl⟩
  · rintro ⟨w, hw, hlayer, hmeta⟩
    refine ⟨w, hw, report.layer, hlayer, ?_⟩
    rw [← hmeta]

theorem rxCallback_direct {report : Option RxReport} :
    (node.rxCallback path peerId .dataDirect report).escaped = false := by
  rcases report with _ | report
  · rfl
  cases path with
  | worker => exact @handleReport_direct _ node peerId report
  | fallback => rfl

theorem receiveControl_escaped :
    (node.receiveControl decoder peerId data).escaped = false := by
  unfold Node.receiveControl
  cases decoder.decode data with
  | none => rfl
  | some packet =>
    dsimp only
    split <;> rfl

theorem receiveDirect_escaped :
    (node.receiveDirect aead decoder path peerId data).escaped = true ↔
      58 ≤ data.length ∧ peekedDstNode data ≠ node.nodeId ∧
        ∃ w, decoder.decode data = some w ∧ ¬w.route.Plain := by
  unfold Node.receiveDirect
  split
  case isTrue hrelay =>
    simp only [hrelay.1, true_and]
    rcases hread : decoder.decode data with _ | w
    · simp [Node.hold]
    have hwritten := serialize_isSome (decode_inRange hread)
    simp only [Option.some.injEq, exists_eq_left', ← hwritten, Node.relayDirect]
    cases w.serialize with
    | none => simpa using hrelay.2
    | some serialized => simp
  case isFalse hhere =>
    have hnone : ¬(58 ≤ data.length ∧ peekedDstNode data ≠ node.nodeId ∧
        ∃ w, decoder.decode data = some w ∧ ¬w.route.Plain) := fun h => hhere ⟨h.1, h.2.1⟩
    rw [iff_false_right hnone]
    split
    case isTrue =>
      cases node.sessionKey (peekedSrcNode data) with
      | none => simp [Node.hold]
      | some key => simp [rxCallback_direct]
    case isFalse => simp [Node.hold]

/-- A callback for an onion layer throws where the layer is to be relayed and cannot be. -/
theorem rxCallback_data (hdecrypt : ∀ key data plain, aead.decrypt key data = some plain →
      plain.length ≤ data.length) {key : Key} (hkey : node.sessionKey peerId = some key)
    (htype : peekedType data = some PacketType.data.code) :
    (node.rxCallback path peerId .data (decoder.submitRx aead data key .data)).escaped = true ↔
      path = .worker ∧ ∃ w layer, node.Opens aead decoder peerId data w layer ∧
        node.Relays peerId w layer ∧ ¬(w.hop + 1 < 65536 ∧ w.route.Copies) := by
  have hopens : ∀ w layer, node.Opens aead decoder peerId data w layer ↔
      decoder.decode data = some w ∧ peelOnionLayer aead w.payload key = some layer := by
    intro w layer
    simp only [Node.Opens, htype, hkey, Option.bind_some, true_and]
  cases path with
  | fallback =>
    cases decoder.submitRx aead data key .data with
    | none => simp [Node.rxCallback, Node.hold]
    | some report => simp [Node.rxCallback]
  | worker =>
    simp only [hopens, true_and]
    have hreport : ∀ {w : WirePacket} {layer : Layer}, decoder.decode data = some w →
        peelOnionLayer aead w.payload key = some layer →
        ((node.handleReport peerId .data ⟨layer, w.meta⟩).escaped = true ↔
          node.Relays peerId w layer ∧ ¬(w.hop + 1 < 65536 ∧ w.route.Copies)) := by
      intro w layer hread hlayer
      have hrange := decode_inRange hread
      have hsmall : layer.payload.length < 4294967296 :=
        lt_of_le_of_lt (peelOnionLayer_shorter hdecrypt hlayer) hrange.payload
      have hlower : WirePacket.InRange { w.meta with
          visitedNodes := .arr [.str node.nodeId], ttl := w.meta.ttl - 1 } :=
        ⟨hrange.hop, lt_of_le_of_lt (Nat.sub_le _ _) hrange.ttl, hrange.seq, by
          simp [WirePacket.meta]⟩
      rw [handleReport_escaped, forwarded_isSome hlower hsmall]
      rfl
    constructor
    · intro hescaped
      cases hjob : decoder.submitRx aead data key .data with
      | none =>
        rw [hjob] at hescaped
        cases hescaped
      | some report =>
        obtain ⟨w, hread, hlayer, hmeta⟩ := submitRx_data.mp hjob
        obtain ⟨layer, packetMeta⟩ := report
        cases hmeta
        rw [hjob] at hescaped
        exact ⟨w, layer, ⟨hread, hlayer⟩, (hreport hread hlayer).mp hescaped⟩
    · rintro ⟨w, layer, ⟨hread, hlayer⟩, hrelay⟩
      have hjob : decoder.submitRx aead data key .data = some ⟨layer, w.meta⟩ :=
        submitRx_data.mpr ⟨w, hread, hlayer, rfl⟩
      rw [hjob]
      exact (hreport hread hlayer).mpr hrelay

theorem receive_escaped (hdecrypt : ∀ key data plain, aead.decrypt key data = some plain →
      plain.length ≤ data.length) :
    (node.receive aead decoder path peerId data).escaped = false ↔
      node.Harmless aead decoder path peerId data := by
  have hother : ∀ {code other : UInt8}, peekedType data = some code → code ≠ other →
      ¬peekedType data = some other := by
    intro code other hcode hne heq
    exact hne (Option.some.inj (hcode.symm.trans heq))
  unfold Node.receive
  split
  case isTrue hshort =>
    have hnone : peekedType data = none := List.getElem?_eq_none (by omega)
    refine iff_of_true rfl ⟨fun _ w layer hopens => ?_, fun w hrelay => ?_⟩
    · rw [hopens.1] at hnone
      cases hnone
    · rw [hrelay.1] at hnone
      cases hnone
  case isFalse =>
    split
    case isTrue htype =>
      have hdirect : ∀ w, node.RelaysDirect decoder data w → w.route.Plain := fun w hrelay =>
        absurd hrelay.1 (hother htype (by decide))
      cases hkey : node.sessionKey peerId with
      | none =>
        refine iff_of_true rfl ⟨fun _ w layer hopens => ?_, hdirect⟩
        have hpeeled := hopens.2.2
        rw [hkey] at hpeeled
        cases hpeeled
      | some key =>
        dsimp only
        rw [← Bool.not_eq_true, rxCallback_data hdecrypt hkey htype]
        constructor
        · intro hnot
          refine ⟨fun hpath w layer hopens hrelays => ?_, hdirect⟩
          by_contra hbad
          exact hnot ⟨hpath, w, layer, hopens, hrelays, hbad⟩
        · rintro hharmless ⟨hpath, w, layer, hopens, hrelays, hbad⟩
          exact hbad (hharmless.onion hpath w layer hopens hrelays)
    case isFalse hdata =>
      have honion : path = .worker → ∀ w layer, node.Opens aead decoder peerId data w layer →
          node.Relays peerId w layer → w.hop + 1 < 65536 ∧ w.route.Copies :=
        fun _ w layer hopens => absurd hopens.1 hdata
      split
      case isTrue htype =>
        rw [← Bool.not_eq_true, receiveDirect_escaped]
        constructor
        · intro hnot
          refine ⟨honion, fun w hrelay => ?_⟩
          by_contra hbad
          exact hnot ⟨hrelay.2.1, hrelay.2.2.1, w, hrelay.2.2.2, hbad⟩
        · rintro hharmless ⟨hlong, hdst, w, hread, hbad⟩
          exact hbad (hharmless.direct w ⟨htype, hlong, hdst, hread⟩)
      case isFalse htype =>
        refine iff_of_true receiveControl_escaped ⟨honion, fun w hrelay => ?_⟩
        exact absurd hrelay.1 htype

end

section

variable {node : Node Key} {peerId : Id}

theorem handleReport_effects {packetType : PacketType} {report : RxReport} :
    (node.handleReport peerId packetType report).effects.length ≤ 1 := by
  have hforward : ∀ (node : Node Key) w nextHop payload,
      (node.forwardWire w nextHop payload peerId).effects.length ≤ 1 := by
    intro node w nextHop payload
    unfold Node.forwardWire
    split
    case isTrue => exact Nat.zero_le 1
    split
    case isTrue => exact Nat.zero_le 1
    split
    case h_1 => exact Nat.zero_le 1
    case h_2 => exact Nat.le_refl 1
  have hlayer : ∀ (node : Node Key) w,
      (node.handleWireLayer w report.layer peerId).effects.length ≤ 1 := by
    intro node w
    unfold Node.handleWireLayer
    split
    case isTrue =>
      split
      case isTrue => exact Nat.le_refl 1
      split
      case isTrue => exact Nat.le_refl 1
      case isFalse => exact Nat.zero_le 1
    case isFalse =>
      split
      case isTrue => exact Nat.zero_le 1
      case isFalse => exact hforward _ _ _ _
  unfold Node.handleReport
  dsimp only
  split
  case isTrue =>
    split
    case isTrue => exact Nat.zero_le 1
    split
    case isTrue => exact Nat.zero_le 1
    split
    case isTrue => exact Nat.zero_le 1
    case isFalse => exact hlayer _ _
  case isFalse =>
    split
    case isTrue => exact Nat.le_refl 1
    split
    case isTrue => exact Nat.le_refl 1
    case isFalse => exact Nat.zero_le 1

theorem rxCallback_effects {path : RxPath} {packetType : PacketType}
    {report : Option RxReport} :
    (node.rxCallback path peerId packetType report).effects.length ≤ 1 := by
  rcases report with _ | report
  · exact Nat.zero_le 1
  cases path with
  | worker => exact @handleReport_effects _ node peerId packetType report
  | fallback => exact @handleReport_effects _ node peerId packetType report

theorem receive_effects {path : RxPath} {data : Bytes} :
    (node.receive aead decoder path peerId data).effects.length ≤ 1 := by
  unfold Node.receive
  split
  case isTrue => exact Nat.zero_le 1
  split
  case isTrue =>
    cases node.sessionKey peerId with
    | none => exact Nat.zero_le 1
    | some key => exact rxCallback_effects
  split
  case isTrue =>
    unfold Node.receiveDirect
    split
    case isTrue =>
      rcases decoder.decode data with _ | packet
      · exact Nat.zero_le 1
      dsimp only [Node.relayDirect]
      cases packet.serialize with
      | none => exact Nat.zero_le 1
      | some serialized => exact Nat.le_refl 1
    case isFalse =>
      split
      case isTrue =>
        cases node.sessionKey (peekedSrcNode data) with
        | none => exact Nat.zero_le 1
        | some key => exact rxCallback_effects
      case isFalse => exact Nat.zero_le 1
  case isFalse =>
    unfold Node.receiveControl
    rcases decoder.decode data with _ | packet
    · exact Nat.zero_le 1
    dsimp only
    split
    case isTrue => exact Nat.le_refl 1
    case isFalse => exact Nat.zero_le 1

end

/-- The next message of the peer, with the flow id that it is given where it has none; or
anything that other peers and timers do to the node in between. -/
inductive RxEvent (Key : Type) where
  | message (path : RxPath) (flowId : Id) (data : Bytes)
  | elsewhere (node : Node Key)

def RxEvent.isMessage : RxEvent Key → Bool
  | .message .. => true
  | .elsewhere _ => false

/-- What was done with each message so far; the chain ends with an exception. -/
structure RxChain (Key : Type) where
  node : Node Key
  handled : List (List RxEffect)
  escaped : Bool

section

variable (aead) (parse : Bytes → Option Json) (peerId : Id)

/-- `_handleIncomingMessage`, when it is the turn of the message. -/
def RxChain.next (chain : RxChain Key) : RxEvent Key → RxChain Key
  | .message path flowId data =>
    if chain.escaped then chain
    else
      let reception := chain.node.receive aead ⟨parse, flowId⟩ path peerId data
      ⟨reception.node, chain.handled ++ [reception.effects], reception.escaped⟩
  | .elsewhere node => { chain with node }

def RxChain.run (chain : RxChain Key) (events : List (RxEvent Key)) : RxChain Key :=
  events.foldl (fun chain event => chain.next aead parse peerId event) chain

/-- Every message is harmless to the node that it finds. -/
def HarmlessRun : Node Key → List (RxEvent Key) → Prop
  | _, [] => True
  | node, .message path flowId data :: events =>
    node.Harmless aead ⟨parse, flowId⟩ path peerId data ∧
      HarmlessRun (node.receive aead ⟨parse, flowId⟩ path peerId data).node events
  | _, .elsewhere node :: events => HarmlessRun node events

variable {aead parse peerId}

variable {chain : RxChain Key}

theorem run_escaped (h : chain.escaped = true)
    (events : List (RxEvent Key)) :
    (chain.run aead parse peerId events).escaped = true := by
  induction events generalizing chain with
  | nil => exact h
  | cons event events ih =>
    refine ih ?_
    cases event with
    | message path flowId data => simp only [RxChain.next, h, if_true]
    | elsewhere node => exact h

theorem run_safe_iff (hdecrypt : ∀ key data plain, aead.decrypt key data = some plain →
      plain.length ≤ data.length) {chain : RxChain Key} (h : chain.escaped = false)
    (events : List (RxEvent Key)) :
    (chain.run aead parse peerId events).escaped = false ↔
      HarmlessRun aead parse peerId chain.node events := by
  induction events generalizing chain with
  | nil => exact iff_of_true h trivial
  | cons event events ih =>
    cases event with
    | elsewhere node =>
      have hrest := @ih { chain with node } h
      exact hrest
    | message path flowId data =>
      have hsafe := @receive_escaped _ _ aead ⟨parse, flowId⟩ chain.node path peerId data hdecrypt
      have hnext : chain.next aead parse peerId (.message path flowId data) =
          ⟨(chain.node.receive aead ⟨parse, flowId⟩ path peerId data).node,
            chain.handled ++ [(chain.node.receive aead ⟨parse, flowId⟩ path peerId data).effects],
            (chain.node.receive aead ⟨parse, flowId⟩ path peerId data).escaped⟩ := by
        simp [RxChain.next, h]
      have hfold : chain.run aead parse peerId (.message path flowId data :: events) =
          (chain.next aead parse peerId (.message path flowId data)).run aead parse peerId
            events := rfl
      rw [hfold, hnext, HarmlessRun, ← hsafe]
      cases hescaped : (chain.node.receive aead ⟨parse, flowId⟩ path peerId data).escaped with
      | true => simp [run_escaped]
      | false =>
        rw [@ih ⟨_, _, false⟩ rfl]
        simp

theorem run_handled (events : List (RxEvent Key))
    (h : (chain.run aead parse peerId events).escaped = false) :
    (chain.run aead parse peerId events).handled.length =
      chain.handled.length + events.countP RxEvent.isMessage := by
  induction events generalizing chain with
  | nil => rfl
  | cons event events ih =>
    have hrest := ih h
    have hfold : chain.run aead parse peerId (event :: events) =
        (chain.next aead parse peerId event).run aead parse peerId events := rfl
    rw [hfold, hrest, List.countP_cons]
    cases event with
    | elsewhere node => simp [RxChain.next, RxEvent.isMessage]
    | message path flowId data =>
      have hgoing : chain.escaped = false := by
        rw [← Bool.not_eq_true]
        intro hescaped
        rw [run_escaped hescaped] at h
        cases h
      simp only [RxChain.next, hgoing, Bool.false_eq_true, if_false, List.length_append,
        List.length_singleton, RxEvent.isMessage, if_true]
      omega

theorem run_effects (events : List (RxEvent Key))
    (h : ∀ effects ∈ chain.handled, effects.length ≤ 1) :
    ∀ effects ∈ (chain.run aead parse peerId events).handled, effects.length ≤ 1 := by
  induction events generalizing chain with
  | nil => exact h
  | cons event events ih =>
    refine ih ?_
    cases event with
    | elsewhere node => exact h
    | message path flowId data =>
      intro effects hmem
      cases hescaped : chain.escaped with
      | true =>
        simp only [RxChain.next, hescaped, if_true] at hmem
        exact h effects hmem
      | false =>
        simp only [RxChain.next, hescaped, Bool.false_eq_true, if_false] at hmem
        rcases List.mem_append.mp hmem with hold | hnew
        · exact h effects hold
        · rw [List.mem_singleton.mp hnew]
          exact receive_effects

end

def lateHop : Bytes :=
  [2, 1, 255, 255, 5, 0, 0, 0, 0, 0] ++ padId [102] ++ padId [97] ++ padId [100] ++
    Bytes.ofUInt32 46 ++ tagged.encrypt 195 () (encodeLayer [100] false [1])

end Meshpn.Mesh

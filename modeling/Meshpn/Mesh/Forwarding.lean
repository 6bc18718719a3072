import Meshpn.Mesh.ReceiveSafety

/-!
How often a packet is retransmitted. Every relay of an onion layer takes one from the
time to live and none is made at the end of it, but a direct relay neither looks at it
nor takes from it. A direct relay goes to the packet's destination, so that one is made
at most.
-/

namespace Meshpn.Mesh

open Meshpn.Lib

def headerTtl (data : Bytes) : Nat := (data[4]?.getD 0).toNat

theorem decode_ttl {decoder : Decoder} {data : Bytes} {w : WirePacket}
    (h : decoder.decode data = some w) : w.ttl = headerTtl data := by
  unfold Decoder.decode at h
  split at h
  case isTrue => contradiction
  split at h
  case isTrue =>
    obtain ⟨p, hp, rfl⟩ := Option.map_eq_some_iff.mp h
    unfold deserializeV2 at hp
    split at hp
    case h_1 =>
      split at hp
      case isTrue => contradiction
      obtain ⟨length, -, rfl⟩ := Option.map_eq_some_iff.mp hp
      rfl
    case h_2 => contradiction
  case isFalse =>
    unfold Decoder.deserializeV1 at h
    split at h
    case h_1 =>
      split at h
      case isTrue => contradiction
      obtain ⟨⟨route, rest⟩, -, h⟩ := Option.bind_eq_some_iff.mp h
      obtain ⟨⟨visited, tail⟩, -, h⟩ := Option.bind_eq_some_iff.mp h
      obtain ⟨length, -, rfl⟩ := Option.map_eq_some_iff.mp h
      rfl
    case h_2 => contradiction

theorem serialize_fields {w : WirePacket} {bytes : Bytes} (h : w.serialize = some bytes) :
    headerTtl bytes = w.ttl ∧ peekedType bytes = some w.type ∧
      peekedDstNode bytes = stripId (padId w.dstNode) := by
  obtain ⟨⟨count, items⟩, -, h⟩ := Option.bind_eq_some_iff.mp h
  dsimp only at h
  split at h
  case isFalse => cases h
  rename_i hfits
  obtain ⟨ids, -, rfl⟩ := Option.map_eq_some_iff.mp h
  have httl : w.ttl < 256 := by
    simp only [WirePacket.fits, Bool.and_eq_true, decide_eq_true_eq] at hfits
    exact hfits.1.1.1.2
  have hfront : ([2, w.type] ++ Bytes.ofUInt16 w.hop ++ [UInt8.ofNat w.ttl, UInt8.ofNat count] ++
      Bytes.ofUInt32 w.seq ++ padId w.flowId ++ padId w.srcNode).length = 42 := by
    simp [padId_length]
  refine ⟨?_, rfl, ?_⟩
  · have hbyte : headerTtl (w.header count ++ ids ++ Bytes.ofUInt32 w.payload.length ++
        w.payload ++ List.replicate (16 * (count - items.length)) 0) =
        (UInt8.ofNat w.ttl).toNat := rfl
    rw [hbyte, Bytes.toNat_ofNat httl]
  · unfold peekedDstNode WirePacket.header
    simp only [List.append_assoc] at hfront ⊢
    have hskip : ∀ rest, (([2, w.type] ++ (Bytes.ofUInt16 w.hop ++ ([UInt8.ofNat w.ttl,
        UInt8.ofNat count] ++ (Bytes.ofUInt32 w.seq ++ (padId w.flowId ++ padId w.srcNode))))) ++
        rest).drop 42 = rest := fun rest => List.drop_left' hfront
    have hdst := hskip (padId w.dstNode ++ (ids ++ (Bytes.ofUInt32 w.payload.length ++
      (w.payload ++ List.replicate (16 * (count - items.length)) 0))))
    simp only [List.append_assoc] at hdst
    rw [hdst, List.take_left' (padId_length w.dstNode)]

theorem forwarded_fields {w : WirePacket} {payload bytes : Bytes}
    (h : w.forwarded payload = some bytes) :
    headerTtl bytes = w.ttl ∧ peekedType bytes = some w.type := by
  obtain ⟨copy, hcopy, hbytes⟩ := Option.bind_eq_some_iff.mp h
  obtain ⟨items, -, rfl⟩ := Option.map_eq_some_iff.mp hcopy
  obtain ⟨httl, htype, -⟩ := serialize_fields hbytes
  exact ⟨httl, htype⟩

section

variable {Key Nonce : Type} {aead : Aead Key Nonce} {decoder : Decoder} {node : Node Key}
  {path : RxPath} {peerId next : Id} {data bytes : Bytes}

theorem handleReport_send {packetType : PacketType} {report : RxReport}
    (h : .send next bytes ∈ (node.handleReport peerId packetType report).effects) :
    packetType = .data ∧ 2 ≤ report.packetMeta.ttl ∧ headerTtl bytes = report.packetMeta.ttl - 1 ∧
      peekedType bytes = some report.packetMeta.type := by
  unfold Node.handleReport at h
  dsimp only at h
  split at h
  case isTrue hdata =>
    split at h
    case isTrue => cases h
    split at h
    case isTrue => cases h
    split at h
    case isTrue => cases h
    rename_i hlast
    unfold Node.handleWireLayer at h
    split at h
    case isTrue =>
      split at h
      case isTrue => simp at h
      split at h
      case isTrue => simp at h
      case isFalse => cases h
    case isFalse =>
      split at h
      case isTrue => cases h
      unfold Node.forwardWire at h
      split at h
      case isTrue => cases h
      split at h
      case isTrue => cases h
      split at h
      case h_1 => cases h
      rename_i serialized hserialized
      simp only [List.mem_singleton, RxEffect.send.injEq] at h
      obtain ⟨-, rfl⟩ := h
      obtain ⟨httl, htype⟩ := forwarded_fields hserialized
      exact ⟨hdata, by omega, httl, htype⟩
  case isFalse =>
    split at h
    case isTrue => simp at h
    split at h
    case isTrue => simp at h
    case isFalse => cases h

theorem rxCallback_send {packetType : PacketType} {report : Option RxReport}
    (h : .send next bytes ∈ (node.rxCallback path peerId packetType report).effects) :
    packetType = .data ∧ ∃ done, report = some done ∧ 2 ≤ done.packetMeta.ttl ∧
      headerTtl bytes = done.packetMeta.ttl - 1 ∧
      peekedType bytes = some done.packetMeta.type := by
  rcases report with _ | done
  · cases h
  have hsent : .send next bytes ∈ (node.handleReport peerId packetType done).effects := by
    cases path with
    | worker => exact h
    | fallback => exact h
  obtain ⟨hdata, hfields⟩ := handleReport_send hsent
  exact ⟨hdata, done, rfl, hfields⟩

theorem receive_send (h : .send next bytes ∈ (node.receive aead decoder path peerId data).effects) :
    (peekedType data = some PacketType.data.code ∧ headerTtl bytes + 1 = headerTtl data ∧
      1 ≤ headerTtl bytes ∧ peekedType bytes = some PacketType.data.code) ∨
    ∃ w, node.RelaysDirect decoder data w ∧ w.route.Plain ∧ next = w.dstNode ∧
      headerTtl bytes = headerTtl data ∧ peekedType bytes = some PacketType.dataDirect.code ∧
      peekedDstNode bytes = stripId (padId next) := by
  unfold Node.receive at h
  split at h
  case isTrue => cases h
  split at h
  case isTrue hdata =>
    left
    cases hkey : node.sessionKey peerId with
    | none =>
      rw [hkey] at h
      cases h
    | some key =>
      rw [hkey] at h
      obtain ⟨-, report, hreport, hlive, httl, htype⟩ := rxCallback_send h
      obtain ⟨w, hread, -, hmeta⟩ := submitRx_data.mp hreport
      have hheader := decode_ttl hread
      rw [hmeta] at hlive httl htype
      have hkept : w.meta.ttl = w.ttl := rfl
      rw [hkept] at hlive httl
      exact ⟨hdata, by omega, by omega, htype⟩
  case isFalse =>
    split at h
    case isTrue hdirect =>
      right
      unfold Node.receiveDirect at h
      split at h
      case isTrue hrelay =>
        cases hread : decoder.decode data with
        | none =>
          rw [hread] at h
          cases h
        | some w =>
          rw [hread] at h
          dsimp only [Node.relayDirect] at h
          cases hwritten : w.serialize with
          | none =>
            rw [hwritten] at h
            cases h
          | some serialized =>
            rw [hwritten] at h
            simp only [List.mem_singleton, RxEffect.send.injEq] at h
            obtain ⟨rfl, rfl⟩ := h
            obtain ⟨httl, htype, hdst⟩ := serialize_fields hwritten
            have hpeeked := (peeks_decode decoder hread).type
            rw [hdirect] at hpeeked
            have hplain : w.route.Plain := by
              rw [← serialize_isSome (decode_inRange hread), hwritten]
              rfl
            exact ⟨w, ⟨hdirect, hrelay.1, hrelay.2, hread⟩, hplain, rfl,
              httl.trans (decode_ttl hread), htype.trans hpeeked.symm, hdst⟩
      case isFalse =>
        split at h
        case isTrue =>
          cases hkey : node.sessionKey (peekedSrcNode data) with
          | none =>
            rw [hkey] at h
            cases h
          | some key =>
            rw [hkey] at h
            exact absurd (rxCallback_send h).1 (by decide)
        case isFalse => cases h
    case isFalse =>
      unfold Node.receiveControl at h
      split at h
      case h_1 => cases h
      split at h
      case isTrue => simp at h
      case isFalse => cases h

theorem receive_relaysDirect {w : WirePacket} (h : node.RelaysDirect decoder data w)
    (hplain : w.route.Plain) : ∃ bytes,
      .send w.dstNode bytes ∈ (node.receive aead decoder path peerId data).effects ∧
        headerTtl bytes = headerTtl data := by
  obtain ⟨htype, hlong, hdst, hread⟩ := h
  obtain ⟨serialized, hwritten⟩ :=
    Option.isSome_iff_exists.mp ((serialize_isSome (decode_inRange hread)).mpr hplain)
  have hother : ¬peekedType data = some PacketType.data.code := by
    rw [htype]
    decide
  refine ⟨serialized, ?_, (serialize_fields hwritten).1.trans (decode_ttl hread)⟩
  rw [Node.receive, if_neg (by omega), if_neg hother, if_pos htype, Node.receiveDirect,
    if_pos ⟨hlong, hdst⟩, hread]
  dsimp only [Node.relayDirect]
  rw [hwritten]
  exact List.mem_cons_self

def Node.TakesTtl (node : Node Key) (decoder : Decoder) (data : Bytes) : Prop :=
  ∀ w, node.RelaysDirect decoder data w → ¬w.route.Plain

theorem receive_takesTtl :
    (∀ next bytes, .send next bytes ∈ (node.receive aead decoder path peerId data).effects →
      headerTtl bytes < headerTtl data) ↔ node.TakesTtl decoder data := by
  constructor
  · intro hless w hrelay hplain
    obtain ⟨bytes, hsent, hsame⟩ :=
      @receive_relaysDirect _ _ aead _ _ path peerId _ w hrelay hplain
    have hlower := hless _ _ hsent
    omega
  · intro htakes next bytes hsent
    rcases receive_send hsent with ⟨-, hless, -, -⟩ | ⟨w, hrelay, hplain, -⟩
    · omega
    · exact absurd hplain (htakes w hrelay)

end

/-- A message in flight. -/
structure Transit where
  sender : Id
  receiver : Id
  data : Bytes

def RxEffect.transit (sender : Id) : RxEffect → Option Transit
  | .send peerId serialized => some ⟨sender, peerId, serialized⟩
  | _ => none

section

variable {Key Nonce : Type} (aead : Aead Key Nonce) (parse : Bytes → Option Json)
  (allowed : Node Key → Decoder → Bytes → Prop) (packet : Bytes)

/-- How often a packet was retransmitted, and what is in flight of it. Any node, in whatever
state it is then, may stand at the receiving end, and a message may be lost. -/
inductive Forwarding : Nat → List Transit → Prop where
  | injected (sender receiver : Id) : Forwarding 0 [⟨sender, receiver, packet⟩]
  | lost {total : Nat} {before after : List Transit} {t : Transit}
      (h : Forwarding total (before ++ t :: after)) : Forwarding total (before ++ after)
  | received {total : Nat} {before after : List Transit} {t : Transit}
      (h : Forwarding total (before ++ t :: after)) {node : Node Key}
      (hnode : node.nodeId = t.receiver) (path : RxPath) (flowId : Id)
      (hallowed : allowed node ⟨parse, flowId⟩ t.data) {sent : List Transit}
      (hsent : sent = (node.receive aead ⟨parse, flowId⟩ path t.sender t.data).effects.filterMap
        (RxEffect.transit t.receiver)) :
      Forwarding (total + sent.length) (before ++ after ++ sent)

variable {aead parse packet} {allowed}

theorem transits_cases {effects : List RxEffect} (h : effects.length ≤ 1) (sender : Id) :
    effects.filterMap (RxEffect.transit sender) = [] ∨
      ∃ next bytes, .send next bytes ∈ effects ∧
        effects.filterMap (RxEffect.transit sender) = [⟨sender, next, bytes⟩] := by
  rcases effects with _ | ⟨effect, rest⟩
  · exact .inl rfl
  obtain rfl : rest = [] := List.length_eq_zero_iff.mp (by simpa using h)
  cases effect with
  | send next bytes => exact .inr ⟨next, bytes, List.mem_cons_self, rfl⟩
  | exit => exact .inl rfl
  | reorder => exact .inl rfl
  | control => exact .inl rfl

theorem single_split {α : Type} {before after : List α} {t t' : α}
    (h : before ++ t :: after = [t']) : before = [] ∧ t = t' ∧ after = [] := by
  cases before with
  | nil =>
    injection h with hhead htail
    exact ⟨rfl, hhead, htail⟩
  | cons first rest =>
    injection h with _ htail
    exact absurd htail (by simp)

/-- What holds of the only message in flight bounds how often it was retransmitted, if
every message that is sent on keeps it. -/
theorem forwarding_invariant {keeps : Nat → Transit → Prop} {bound : Nat}
    (hstart : ∀ sender receiver, keeps 0 ⟨sender, receiver, packet⟩)
    (hbound : ∀ total t, keeps total t → total ≤ bound)
    (hstep : ∀ total t (node : Node Key) path flowId next bytes, keeps total t →
      node.nodeId = t.receiver → allowed node ⟨parse, flowId⟩ t.data →
      .send next bytes ∈ (node.receive aead ⟨parse, flowId⟩ path t.sender t.data).effects →
      keeps (total + 1) ⟨t.receiver, next, bytes⟩)
    {total : Nat} {flight : List Transit}
    (h : Forwarding aead parse allowed packet total flight) : total ≤ bound := by
  have hkept : (flight = [] ∧ total ≤ bound) ∨ ∃ t, flight = [t] ∧ keeps total t := by
    induction h with
    | injected sender receiver => exact .inr ⟨_, rfl, hstart sender receiver⟩
    | lost h ih =>
      rcases ih with ⟨hempty, -⟩ | ⟨t', hone, hkeeps⟩
      · exact absurd hempty (by simp)
      · obtain ⟨rfl, rfl, rfl⟩ := single_split hone
        exact .inl ⟨rfl, hbound _ _ hkeeps⟩
    | received h hnode path flowId hallowed hsent ih =>
      rcases ih with ⟨hempty, -⟩ | ⟨t', hone, hkeeps⟩
      · exact absurd hempty (by simp)
      obtain ⟨rfl, rfl, rfl⟩ := single_split hone
      rcases transits_cases receive_effects _ with hnone | ⟨next, bytes, hmem, hnext⟩
      · rw [hsent, hnone]
        exact .inl ⟨rfl, hbound _ _ hkeeps⟩
      · rw [hsent, hnext]
        exact .inr ⟨_, rfl, hstep _ _ _ path flowId next bytes hkeeps hnode hallowed hmem⟩
  rcases hkept with ⟨-, hle⟩ | ⟨t, -, hkeeps⟩
  · exact hle
  · exact hbound total t hkeeps

theorem forwarding_le_ttl {total : Nat} {flight : List Transit}
    (h : Forwarding aead parse Node.TakesTtl packet total flight) :
    total ≤ headerTtl packet := by
  refine @forwarding_invariant _ _ aead parse _ packet
    (fun total t => total + headerTtl t.data ≤ headerTtl packet) _ ?_ ?_ ?_ _ _ h
  · intro sender receiver
    exact Nat.le_of_eq (Nat.zero_add _)
  · intro total t hkeeps
    omega
  · intro total t node path flowId next bytes hkeeps _ htakes hsent
    have hless := receive_takesTtl.mpr htakes next bytes hsent
    dsimp only
    omega

/-- The packet is on its way from relay to relay, or it was relayed to its destination. -/
def Underway (packet : Bytes) (total : Nat) (t : Transit) : Prop :=
  (total + headerTtl t.data ≤ headerTtl packet ∧
      (total = 0 ∨ peekedType t.data = some PacketType.data.code)) ∨
    (total = 1 ∧ peekedType t.data = some PacketType.dataDirect.code ∧
      peekedDstNode t.data = stripId (padId t.receiver))

theorem forwarding_le_max {total : Nat} {flight : List Transit}
    (h : Forwarding aead parse (fun node _ _ => ValidId node.nodeId) packet total flight) :
    total ≤ max (headerTtl packet) 1 := by
  refine @forwarding_invariant _ _ aead parse _ packet (Underway packet) _ ?_ ?_ ?_ _ _ h
  · intro sender receiver
    exact .inl ⟨Nat.le_of_eq (Nat.zero_add _), .inl rfl⟩
  · intro total t hkeeps
    rcases hkeeps with ⟨hless, -⟩ | ⟨hone, -, -⟩
    · omega
    · omega
  · intro total t node path flowId next bytes hkeeps hnode hvalid hsent
    rcases receive_send hsent with ⟨hdata, hless, -, htype⟩ | ⟨w, hrelay, -, -, -, htype, hdst⟩
    case inl =>
      rcases hkeeps with ⟨hbound, -⟩ | ⟨-, hdirect, -⟩
      · refine .inl ⟨?_, .inr htype⟩
        dsimp only
        omega
      · rw [hdirect] at hdata
        exact absurd hdata (by decide)
    case inr =>
      rcases hkeeps with ⟨-, hzero | hdata⟩ | ⟨-, -, harrived⟩
      · exact .inr ⟨by omega, htype, hdst⟩
      · rw [hrelay.1] at hdata
        exact absurd hdata (by decide)
      · -- the destination itself does not relay
        rw [← hnode, stripId_padId hvalid.short] at harrived
        exact absurd harrived hrelay.2.2.1

end

/-- A relay takes from the time to live just where it is not a direct relay. Without one a
packet is retransmitted at most as often as it had to live, and with one at most once more
than never. -/
theorem forwarding_ends {Key Nonce : Type} (aead : Aead Key Nonce)
    (parse : Bytes → Option Json) (packet : Bytes) :
    (∀ (node : Node Key) path flowId peerId data,
      (∀ next bytes,
        .send next bytes ∈ (node.receive aead ⟨parse, flowId⟩ path peerId data).effects →
        headerTtl bytes < headerTtl data) ↔ node.TakesTtl ⟨parse, flowId⟩ data) ∧
    (∀ total flight, Forwarding aead parse Node.TakesTtl packet total flight →
      total ≤ headerTtl packet) ∧
    ∀ total flight, Forwarding aead parse (fun node _ _ => ValidId node.nodeId) packet total
      flight → total ≤ max (headerTtl packet) 1 :=
  ⟨fun _ _ _ _ _ => receive_takesTtl, fun _ _ => forwarding_le_ttl,
    fun _ _ => forwarding_le_max⟩

def deadDirect : Bytes :=
  [2, 8, 0, 0, 0, 0, 0, 0, 0, 0] ++ padId [102] ++ padId [97] ++ padId [100] ++
    Bytes.ofUInt32 0

/-- It is retransmitted all the same. -/
theorem dead_packet_retransmitted :
    ¬∀ total flight, Forwarding tagged (fun _ => none) (fun _ _ _ => True) deadDirect total
      flight → total ≤ headerTtl deadDirect := by
  intro h
  have hinjected := @Forwarding.injected UInt8 Unit tagged (fun _ => none) (fun _ _ _ => True)
    deadDirect [97] [98]
  have hreceived := @Forwarding.received _ _ _ _ _ _ _ [] [] _ hinjected (trio [98]) rfl .worker
    [102] trivial _ rfl
  have hcount : (((trio [98]).receive tagged ⟨fun _ => none, [102]⟩ .worker [97]
      deadDirect).effects.filterMap (RxEffect.transit [98])).length = 1 := by
    decide +kernel
  have hbound := h _ _ hreceived
  rw [hcount] at hbound
  exact absurd hbound (by decide +kernel)

end Meshpn.Mesh

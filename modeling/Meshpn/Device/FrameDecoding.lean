import Meshpn.Bridge.FramingRoundTrip
import Meshpn.Device.Frame

/-!
What the decoder makes of a stream does not depend on how reads cut it: a call on
two pieces is two calls. So a decoder in the middle of a frame may be taken for a
fresh one that is given the frame from its start, and a stream of frames is read
frame by frame, up to the packet that the callback refuses.
-/

namespace Meshpn.Device

open Meshpn.Lib List

namespace Decoder

/-- The decoder is between two passes of an accepted stream: in a header, or in a packet whose
length was accepted. -/
inductive Between (d : Decoder) : Prop where
  | inHeader (hheader : d.header.length < 4) (hpacket : d.packet = []) (hlength : d.length = 0)
  | inPacket (hheader : d.header.length = 4) (hlength : d.length = frameLength d.header)
      (hmin : 20 ≤ d.length) (hmax : d.length ≤ mtu) (hpart : d.packet.length < d.length)

theorem fresh_between (completed : UInt32) : (fresh completed).Between :=
  .inHeader (by simp [fresh]) rfl rfl

def held (d : Decoder) : Bytes := d.header ++ d.packet

end Decoder

section

variable {σ : Type} (emit : σ → Bytes → σ × Bool)

variable {d : Decoder} {p : Bytes} {ctx : σ}

theorem fill_short (ctx : σ)
    (hshort : d.packet.length + p.length < d.length) :
    fill emit d p ctx = ⟨{ d with packet := d.packet ++ p }, [], ctx, true⟩ := by
  have htake : min (d.length - d.packet.length) p.length = p.length := by omega
  unfold fill
  simp only [htake, take_length, drop_length, length_append]
  rw [if_neg (by omega)]

theorem fill_append_short {a : Bytes} (b : Bytes) (ctx : σ)
    (hshort : d.packet.length + a.length < d.length) :
    fill emit d (a ++ b) ctx = fill emit { d with packet := d.packet ++ a } b ctx := by
  have htake : min (d.length - d.packet.length) (a ++ b).length =
      a.length + min (d.length - (d.packet ++ a).length) b.length := by
    simp only [length_append]
    omega
  unfold fill
  simp only [htake, take_length_add_append, drop_length_add_append, append_assoc]

theorem fill_append_long {a : Bytes} (b : Bytes) (ctx : σ)
    (hlong : d.length ≤ d.packet.length + a.length) :
    fill emit d (a ++ b) ctx =
      { fill emit d a ctx with rest := (fill emit d a ctx).rest ++ b } := by
  have hboth : min (d.length - d.packet.length) (a ++ b).length = d.length - d.packet.length := by
    simp only [length_append]
    omega
  have hfirst : min (d.length - d.packet.length) a.length = d.length - d.packet.length := by omega
  have hle : d.length - d.packet.length ≤ a.length := by omega
  unfold fill
  simp only [hboth, hfirst, take_append_of_le_length hle, drop_append_of_le_length hle]
  split
  · split
    · split <;> rfl
    · rfl
  · rfl

theorem fill_between (hheader : d.header.length = 4)
    (hlength : d.length = frameLength d.header) (hmin : 20 ≤ d.length) (hmax : d.length ≤ mtu)
    (hpart : d.packet.length < d.length) (hok : (fill emit d p ctx).ok = true) :
    (fill emit d p ctx).decoder.Between := by
  by_cases hshort : d.packet.length + p.length < d.length
  · rw [fill_short emit ctx hshort]
    refine .inPacket hheader hlength hmin hmax ?_
    simpa using hshort
  have htaken : (d.packet ++ p.take (d.length - d.packet.length)).length = d.length := by
    rw [length_append, length_take]
    omega
  have htake : min (d.length - d.packet.length) p.length = d.length - d.packet.length := by omega
  unfold fill at hok ⊢
  simp only [htake, htaken, if_true] at hok ⊢
  split at hok
  case isTrue hvalid =>
    rw [if_pos hvalid]
    split at hok
    case h_1 => exact Decoder.fresh_between _
    case h_2 => contradiction
  case isFalse => contradiction

theorem fill_rest_length (d : Decoder) (p : Bytes) (ctx : σ) :
    (fill emit d p ctx).rest.length ≤ p.length := by
  unfold fill
  dsimp only
  split
  · split
    · split <;> simp
    · simp
  · simp

theorem pass_between {byte : UInt8} (hd : d.Between)
    (hok : (pass emit d byte p ctx).ok = true) : (pass emit d byte p ctx).decoder.Between := by
  unfold pass at hok ⊢
  cases hd with
  | inHeader hheader hpacket hlength =>
    simp only [if_pos hheader] at hok ⊢
    split at hok
    case isTrue hmore =>
      rw [if_pos hmore]
      have hnext : (d.header ++ [byte]).length < 4 := by
        rw [length_append, length_singleton] at hmore ⊢
        omega
      exact .inHeader hnext hpacket hlength
    case isFalse hfull =>
      rw [if_neg hfull]
      split at hok
      case isTrue => contradiction
      rename_i hrange
      rw [if_neg hrange]
      refine fill_between emit ?_ rfl ?_ ?_ ?_ hok
      · exact not_not.mp hfull
      · dsimp only at hrange ⊢
        omega
      · dsimp only at hrange ⊢
        omega
      · rw [hpacket]
        dsimp only [length_nil] at hrange ⊢
        omega
  | inPacket hheader hlength hmin hmax hpart =>
    simp only [hheader, if_neg (Nat.lt_irrefl 4)] at hok ⊢
    exact fill_between emit hheader hlength hmin hmax hpart hok

theorem pass_rest_length (byte : UInt8) (p : Bytes) (ctx : σ) (hd : d.Between) :
    (pass emit d byte p ctx).rest.length ≤ p.length := by
  unfold pass
  cases hd with
  | inHeader hheader hpacket hlength =>
    simp only [if_pos hheader]
    split
    · exact Nat.le_refl _
    split
    · exact Nat.le_refl _
    · exact fill_rest_length emit _ p ctx
  | inPacket hheader hlength hmin hmax hpart =>
    simp only [hheader, if_neg (Nat.lt_irrefl 4)]
    by_cases hshort : d.packet.length + (byte :: p).length < d.length
    · rw [fill_short emit ctx hshort]
      exact Nat.zero_le _
    rw [← singleton_append]
    by_cases hone : d.packet.length + [byte].length < d.length
    · rw [fill_append_short emit p ctx hone]
      exact fill_rest_length emit _ p ctx
    have hlast : (fill emit d [byte] ctx).rest = [] := by
      have htake : min (d.length - d.packet.length) 1 = 1 := by omega
      unfold fill
      simp only [length_singleton, htake]
      split
      · split
        · split <;> rfl
        · rfl
      · rfl
    rw [fill_append_long emit p ctx (by omega), hlast]
    exact Nat.le_refl _

theorem decodeLoop_fuel (hd : d.Between) {fuel fuel' : Nat}
    (hfuel : p.length ≤ fuel) (hfuel' : p.length ≤ fuel') :
    decodeLoop emit fuel d p ctx = decodeLoop emit fuel' d p ctx := by
  induction fuel generalizing d p ctx fuel' with
  | zero =>
    obtain rfl : p = [] := eq_nil_of_length_eq_zero (Nat.le_zero.mp hfuel)
    cases fuel' <;> rfl
  | succ fuel ih =>
    rcases p with _ | ⟨byte, p⟩
    · cases fuel' <;> rfl
    rcases fuel' with _ | fuel'
    · simp at hfuel'
    rw [length_cons] at hfuel hfuel'
    have hrest := pass_rest_length emit byte p ctx hd
    simp only [decodeLoop]
    split
    case isTrue hok => exact ih (pass_between emit hd hok) (by omega) (by omega)
    case isFalse => rfl

@[simp] theorem decode_nil (d : Decoder) (ctx : σ) : decode emit d [] ctx = ⟨d, ctx, true⟩ := rfl

theorem decode_cons (hd : d.Between) (byte : UInt8) (p : Bytes) (ctx : σ) :
    decode emit d (byte :: p) ctx =
      let after := pass emit d byte p ctx
      if after.ok then decode emit after.decoder after.rest after.ctx
      else ⟨after.decoder, after.ctx, false⟩ := by
  have hrest := pass_rest_length emit byte p ctx hd
  unfold decode
  simp only [length_cons, decodeLoop]
  split
  case isTrue hok =>
    exact decodeLoop_fuel emit (pass_between emit hd hok) (by omega) (by omega)
  case isFalse => rfl

theorem decode_between (hd : d.Between)
    (hok : (decode emit d p ctx).ok = true) : (decode emit d p ctx).decoder.Between := by
  induction hn : p.length using Nat.strongRecOn generalizing d p ctx with
  | ind n ih =>
    rcases p with _ | ⟨byte, p⟩
    · exact hd
    have hrest := pass_rest_length emit byte p ctx hd
    rw [decode_cons emit hd] at hok ⊢
    dsimp only at hok ⊢
    split at hok
    case isTrue hpass =>
      rw [if_pos hpass]
      rw [length_cons] at hn
      exact ih _ (by omega) (pass_between emit hd hpass) hok rfl
    case isFalse => contradiction

theorem decode_inPacket (hd : d.Between) (hheader : d.header.length = 4) (p : Bytes)
    (ctx : σ) :
    decode emit d p ctx =
      let after := fill emit d p ctx
      if after.ok then decode emit after.decoder after.rest after.ctx
      else ⟨after.decoder, after.ctx, false⟩ := by
  cases p with
  | nil =>
    cases hd with
    | inHeader hshort => omega
    | inPacket _ _ _ _ hpart =>
      rw [fill_short emit ctx (by simpa using hpart)]
      simp
  | cons byte p =>
    rw [decode_cons emit hd]
    simp only [pass, hheader, if_neg (Nat.lt_irrefl 4)]

theorem decode_header_more (hheader : d.header.length < 3) (hpacket : d.packet = [])
    (hlength : d.length = 0) (byte : UInt8) (p : Bytes) (ctx : σ) :
    decode emit d (byte :: p) ctx = decode emit { d with header := d.header ++ [byte] } p ctx := by
  have hfour : d.header.length < 4 := by omega
  have hmore : (d.header ++ [byte]).length ≠ 4 := by
    rw [length_append, length_singleton]
    omega
  rw [decode_cons emit (.inHeader hfour hpacket hlength)]
  simp only [pass, if_pos hfour, if_pos hmore, if_true]

def Decoder.sized (d : Decoder) (byte : UInt8) : Decoder :=
  { d with header := d.header ++ [byte], length := frameLength (d.header ++ [byte]) }

theorem Decoder.sized_between {d : Decoder} (hheader : d.header.length = 3)
    (hpacket : d.packet = []) {byte : UInt8} (hmin : 20 ≤ (d.sized byte).length)
    (hmax : (d.sized byte).length ≤ mtu) : (d.sized byte).Between := by
  refine .inPacket ?_ rfl hmin hmax ?_
  · simp [sized, hheader]
  have hnone : (d.sized byte).packet = [] := hpacket
  rw [hnone, length_nil]
  omega

theorem decode_header_last (hheader : d.header.length = 3) (hpacket : d.packet = [])
    (hlength : d.length = 0) (byte : UInt8) (p : Bytes) (ctx : σ) :
    decode emit d (byte :: p) ctx =
      if (d.sized byte).length < 20 ∨ (d.sized byte).length > mtu then ⟨d.sized byte, ctx, false⟩
      else decode emit (d.sized byte) p ctx := by
  have hfour : d.header.length < 4 := by omega
  have hfull : ¬ (d.header ++ [byte]).length ≠ 4 := by
    rw [length_append, length_singleton]
    omega
  rw [decode_cons emit (.inHeader hfour hpacket hlength)]
  simp only [pass, if_pos hfour, if_neg hfull]
  change (let after := if (d.sized byte).length < 20 ∨ (d.sized byte).length > mtu then
      ⟨d.sized byte, p, ctx, false⟩ else fill emit (d.sized byte) p ctx
    if after.ok then decode emit after.decoder after.rest after.ctx
    else (⟨after.decoder, after.ctx, false⟩ : Decoded σ)) = _
  split
  case isTrue => rfl
  rename_i hrange
  have hbetween := @Decoder.sized_between d hheader hpacket byte (by omega) (by omega)
  have hsized : (d.sized byte).header.length = 4 := by simp [Decoder.sized, hheader]
  rw [decode_inPacket emit hbetween hsized]

theorem decode_append (hd : d.Between) (a b : Bytes) (ctx : σ) :
    decode emit d (a ++ b) ctx =
      let after := decode emit d a ctx
      if after.ok then decode emit after.decoder b after.ctx else after := by
  induction hn : a.length using Nat.strongRecOn generalizing d a ctx with
  | ind n ih =>
    rcases a with _ | ⟨byte, a⟩
    · simp
    rw [length_cons] at hn
    cases hd with
    | inHeader hheader hpacket hlength =>
      rw [cons_append]
      by_cases hmore : d.header.length < 3
      · rw [decode_header_more emit hmore hpacket hlength,
          decode_header_more emit hmore hpacket hlength]
        refine ih a.length (by omega) ?_ a ctx rfl
        refine .inHeader ?_ hpacket hlength
        rw [length_append, length_singleton]
        omega
      · have hthree : d.header.length = 3 := by omega
        rw [decode_header_last emit hthree hpacket hlength,
          decode_header_last emit hthree hpacket hlength]
        split
        case isTrue => rfl
        rename_i hrange
        have hbetween := @Decoder.sized_between d hthree hpacket byte (by omega) (by omega)
        exact ih a.length (by omega) hbetween a ctx rfl
    | inPacket hheader hlength hmin hmax hpart =>
      have hd : d.Between := .inPacket hheader hlength hmin hmax hpart
      by_cases hshort : d.packet.length + (byte :: a).length < d.length
      · have hlater : Decoder.Between { d with packet := d.packet ++ (byte :: a) } :=
          .inPacket hheader hlength hmin hmax (by simpa using hshort)
        rw [decode_inPacket emit hd hheader, fill_append_short emit b ctx hshort,
          decode_inPacket emit hd hheader (byte :: a), fill_short emit ctx hshort]
        simp only [decode_nil, if_true]
        rw [decode_inPacket emit hlater hheader]
      · have hrest : (fill emit d (byte :: a) ctx).rest.length ≤ a.length := by
          have hpass := pass_rest_length emit byte a ctx hd
          simpa only [pass, hheader, if_neg (Nat.lt_irrefl 4)] using hpass
        have hok : (fill emit d (byte :: a) ctx).ok = true →
            (fill emit d (byte :: a) ctx).decoder.Between :=
          fill_between emit hheader hlength hmin hmax hpart
        rw [decode_inPacket emit hd hheader, fill_append_long emit b ctx (by omega),
          decode_inPacket emit hd hheader (byte :: a)]
        dsimp only
        split
        case isTrue hgoes =>
          exact ih _ (by omega) (hok hgoes) _ _ rfl
        case isFalse => rfl

theorem decodeAll_eq (hd : d.Between) (chunks : List Bytes) (ctx : σ) :
    decodeAll emit d chunks ctx = decode emit d chunks.flatten ctx := by
  induction chunks generalizing d ctx with
  | nil => rfl
  | cons chunk chunks ih =>
    rw [flatten_cons, decode_append emit hd]
    simp only [decodeAll]
    split
    case isTrue hok => exact ih (decode_between emit hd hok) _
    case isFalse => rfl

/-- How a stream is cut shows nowhere: what is handed on, in which order, and where the decoder
stops are those of the whole stream, for any bytes and any callback. -/
theorem cuts_unseen (chunks : List Bytes) (ctx : σ) :
    decodeAll emit .init chunks ctx = decode emit .init chunks.flatten ctx :=
  decodeAll_eq emit (Decoder.fresh_between 0) chunks ctx

theorem decode_header {header : Bytes} (hheader : header.length = 4) (completed : UInt32)
    (p : Bytes) (ctx : σ) :
    decode emit (Decoder.fresh completed) (header ++ p) ctx =
      let d : Decoder := ⟨header, [], frameLength header, completed⟩
      if d.length < 20 ∨ d.length > mtu then ⟨d, ctx, false⟩ else decode emit d p ctx := by
  obtain ⟨b3, b2, b1, b0, rfl⟩ : ∃ b3 b2 b1 b0, header = [b3, b2, b1, b0] := by
    match header, hheader with
    | [b3, b2, b1, b0], _ => exact ⟨b3, b2, b1, b0, rfl⟩
  have hthird : decode emit (Decoder.fresh completed) ([b3, b2, b1, b0] ++ p) ctx =
      decode emit ⟨[b3, b2, b1], [], 0, completed⟩ (b0 :: p) ctx := by
    rw [cons_append, decode_header_more emit (by simp [Decoder.fresh]) rfl rfl,
      cons_append, decode_header_more emit (by simp [Decoder.fresh]) rfl rfl,
      cons_append, decode_header_more emit (by simp [Decoder.fresh]) rfl rfl]
    rfl
  rw [hthird]
  exact decode_header_last emit rfl rfl rfl b0 p ctx

theorem decode_held (hd : d.Between) (ctx : σ) :
    decode emit (Decoder.fresh d.completed) d.held ctx = ⟨d, ctx, true⟩ := by
  obtain ⟨header, packet, length, completed⟩ := d
  cases hd with
  | inHeader hheader hpacket hlength =>
    dsimp only at hheader hpacket hlength
    subst hpacket hlength
    match header, hheader with
    | [], _ => rfl
    | [_], _ => rfl
    | [_, _], _ => rfl
    | [_, _, _], _ => rfl
  | inPacket hheader hlength hmin hmax hpart =>
    dsimp only at hheader hlength hmin hmax hpart
    subst hlength
    have hbetween : Decoder.Between ⟨header, [], frameLength header, completed⟩ :=
      .inPacket hheader rfl hmin hmax (by dsimp only [length_nil]; omega)
    have hshort : ([] : Bytes).length + packet.length < frameLength header := by simpa using hpart
    rw [Decoder.held, decode_header emit hheader]
    dsimp only
    rw [if_neg (by omega), decode_inPacket emit hbetween hheader, fill_short emit ctx hshort]
    rfl

theorem decode_eq_fresh (hd : d.Between) (p : Bytes) (ctx : σ) :
    decode emit d p ctx = decode emit (Decoder.fresh d.completed) (d.held ++ p) ctx := by
  rw [decode_append emit (Decoder.fresh_between _), decode_held emit hd]
  rfl

end

def Carried (pkt : Bytes) : Prop := ipv4Valid pkt = true ∧ pkt.length ≤ mtu

theorem Carried.framable {pkt : Bytes} (hpkt : Carried pkt) : Bridge.Framable pkt := by
  have hmin := ipv4Valid_length hpkt.1
  have hmax : pkt.length ≤ 1400 := hpkt.2
  exact ⟨by omega, by unfold Bridge.maxPkt; omega⟩

theorem frameLength_ofUInt32 {n : Nat} (h : n ≤ mtu) : frameLength (Bytes.ofUInt32 n) = n := by
  have hread := Bytes.readUInt32_ofUInt32 (n := n) (by unfold mtu at h; omega) []
  rw [append_nil] at hread
  rw [frameLength, hread]
  rfl

section

variable {σ : Type} (emit : σ → Bytes → σ × Bool)

theorem decode_frame {pkt : Bytes} (hmin : 20 ≤ pkt.length) (hmax : pkt.length ≤ mtu)
    (completed : UInt32) (p : Bytes) (ctx : σ) :
    decode emit (Decoder.fresh completed) (Bridge.encodeCleanVpnFramedPkt pkt ++ p) ctx =
      if ipv4Valid pkt then
        let emitted := emit ctx pkt
        if emitted.2 then decode emit (Decoder.fresh (completed + 1)) p emitted.1
        else ⟨⟨Bytes.ofUInt32 pkt.length, pkt, pkt.length, completed⟩, emitted.1, false⟩
      else ⟨⟨Bytes.ofUInt32 pkt.length, pkt, pkt.length, completed⟩, ctx, false⟩ := by
  have hlength := frameLength_ofUInt32 hmax
  have hbetween : Decoder.Between ⟨Bytes.ofUInt32 pkt.length, [], pkt.length, completed⟩ :=
    .inPacket rfl hlength.symm hmin hmax (by dsimp only [length_nil]; omega)
  rw [Bridge.encodeCleanVpnFramedPkt, append_assoc, decode_header emit rfl, hlength]
  dsimp only
  rw [if_neg (by omega), decode_inPacket emit hbetween rfl]
  have htake : min (pkt.length - ([] : Bytes).length) (pkt ++ p).length = pkt.length := by
    rw [length_append, length_nil]
    omega
  unfold fill
  simp only [htake, take_left, drop_left, nil_append, if_true]
  split
  case isTrue =>
    rcases hemit : emit ctx pkt with ⟨after, ok⟩
    cases ok <;> rfl
  case isFalse => rfl

theorem decode_badLength {header : Bytes} (hheader : header.length = 4)
    (hrange : frameLength header < 20 ∨ frameLength header > mtu) (completed : UInt32) (p : Bytes)
    (ctx : σ) :
    decode emit (Decoder.fresh completed) (header ++ p) ctx =
      ⟨⟨header, [], frameLength header, completed⟩, ctx, false⟩ := by
  rw [decode_header emit hheader]
  exact if_pos hrange

/-- The callback on one packet after another, up to the first that it refuses. -/
def emitAll : σ → List Bytes → σ × Bool
  | ctx, [] => (ctx, true)
  | ctx, pkt :: rest =>
    let emitted := emit ctx pkt
    if emitted.2 then emitAll emitted.1 rest else (emitted.1, false)

theorem decode_frames {packets : List Bytes} (hcarried : ∀ pkt ∈ packets, Carried pkt)
    (completed : UInt32) (p : Bytes) {ctx : σ} (htaken : (emitAll emit ctx packets).2 = true) :
    ∃ later, later = completed + UInt32.ofNat packets.length ∧
      decode emit (Decoder.fresh completed) (Bridge.frames packets ++ p) ctx =
        decode emit (Decoder.fresh later) p (emitAll emit ctx packets).1 := by
  induction packets generalizing completed ctx with
  | nil => exact ⟨completed, by simp, by simp [emitAll]⟩
  | cons pkt rest ih =>
    have hpkt := hcarried pkt mem_cons_self
    have hrest : ∀ other ∈ rest, Carried other :=
      fun other hother => hcarried other (mem_cons_of_mem _ hother)
    simp only [emitAll] at htaken ⊢
    split at htaken
    case isTrue hemitted =>
      obtain ⟨later, hcount, hlater⟩ := ih hrest (completed + 1) htaken
      refine ⟨later, ?_, ?_⟩
      · rw [hcount, length_cons, UInt32.ofNat_add, UInt32.add_assoc]
        exact congrArg (completed + ·) (UInt32.add_comm _ _)
      rw [Bridge.frames_cons, append_assoc,
        decode_frame emit (ipv4Valid_length hpkt.1) hpkt.2, if_pos hpkt.1]
      dsimp only
      rw [if_pos hemitted, if_pos hemitted]
      exact hlater
    case isFalse => contradiction

theorem decode_frames_refused {packets : List Bytes} (hcarried : ∀ pkt ∈ packets, Carried pkt)
    (completed : UInt32) (p : Bytes) {ctx : σ} (hrefused : (emitAll emit ctx packets).2 = false) :
    (decode emit (Decoder.fresh completed) (Bridge.frames packets ++ p) ctx).ok = false ∧
      (decode emit (Decoder.fresh completed) (Bridge.frames packets ++ p) ctx).ctx =
        (emitAll emit ctx packets).1 := by
  induction packets generalizing completed ctx with
  | nil => simp [emitAll] at hrefused
  | cons pkt rest ih =>
    have hpkt := hcarried pkt mem_cons_self
    have hrest : ∀ other ∈ rest, Carried other :=
      fun other hother => hcarried other (mem_cons_of_mem _ hother)
    simp only [emitAll] at hrefused ⊢
    rw [Bridge.frames_cons, append_assoc,
      decode_frame emit (ipv4Valid_length hpkt.1) hpkt.2, if_pos hpkt.1]
    dsimp only
    split at hrefused
    case isTrue hemitted =>
      rw [if_pos hemitted, if_pos hemitted]
      exact ih hrest (completed + 1) hrefused
    case isFalse hemitted =>
      rw [if_neg hemitted, if_neg hemitted]
      exact ⟨rfl, rfl⟩

end

variable {packets : List Bytes}

theorem frames_cut {bytes future : Bytes}
    (hstream : bytes ++ future = Bridge.frames packets) :
    ∃ now rest part, packets = now ++ rest ∧ bytes = Bridge.frames now ++ part ∧
      part ++ future = Bridge.frames rest ∧
      (∀ pkt more, rest = pkt :: more → part.length < 4 + pkt.length) := by
  induction packets generalizing bytes with
  | nil => exact ⟨[], [], bytes, rfl, rfl, hstream, nofun⟩
  | cons pkt packets ih =>
    by_cases hwhole : 4 + pkt.length ≤ bytes.length
    · have hlength := Bridge.encodeCleanVpnFramedPkt_length pkt
      have hfront : bytes.take (4 + pkt.length) = Bridge.encodeCleanVpnFramedPkt pkt := by
        have htake := congrArg (List.take (4 + pkt.length)) hstream
        rwa [take_append_of_le_length hwhole, Bridge.frames_cons,
          take_left' hlength] at htake
      have hback : bytes.drop (4 + pkt.length) ++ future = Bridge.frames packets := by
        have hdrop := congrArg (List.drop (4 + pkt.length)) hstream
        rwa [drop_append_of_le_length hwhole, Bridge.frames_cons,
          drop_left' hlength] at hdrop
      obtain ⟨now, rest, part, hpackets, hbytes, hpart, hshort⟩ := ih hback
      refine ⟨pkt :: now, rest, part, by rw [hpackets]; rfl, ?_, hpart, hshort⟩
      rw [Bridge.frames_cons, append_assoc, ← hbytes, ← hfront, take_append_drop]
    · refine ⟨[], pkt :: packets, bytes, rfl, rfl, hstream, ?_⟩
      intro other more hrest
      cases hrest
      omega

theorem decode_part {σ : Type} (emit : σ → Bytes → σ × Bool) {pkt part future : Bytes}
    {more : List Bytes} (hpkt : Carried pkt)
    (hpart : part ++ future = Bridge.frames (pkt :: more)) (hshort : part.length < 4 + pkt.length)
    (completed : UInt32) (ctx : σ) :
    ∃ d : Decoder, d.Between ∧ d.held = part ∧ d.completed = completed ∧
      decode emit (Decoder.fresh completed) part ctx = ⟨d, ctx, true⟩ := by
  have hmin := ipv4Valid_length hpkt.1
  have hmax := hpkt.2
  by_cases hfour : part.length < 4
  · have hbetween : Decoder.Between ⟨part, [], 0, completed⟩ := .inHeader hfour rfl rfl
    refine ⟨_, hbetween, append_nil part, rfl, ?_⟩
    have hheld := decode_held emit hbetween ctx
    rwa [Decoder.held, append_nil] at hheld
  have hheader : part.take 4 = Bytes.ofUInt32 pkt.length := by
    have htake := congrArg (List.take 4) hpart
    rw [take_append_of_le_length (by omega), Bridge.frames_cons,
      Bridge.encodeCleanVpnFramedPkt, append_assoc] at htake
    exact htake.trans (take_left' rfl)
  have hsize := frameLength_ofUInt32 hmax
  have hbetween : Decoder.Between ⟨part.take 4, part.drop 4, pkt.length, completed⟩ := by
    refine .inPacket ?_ ?_ hmin hmax ?_
    · rw [length_take]
      omega
    · rw [hheader, hsize]
    · dsimp only
      rw [length_drop]
      omega
  refine ⟨_, hbetween, take_append_drop 4 part, rfl, ?_⟩
  have hheld := decode_held emit hbetween ctx
  rwa [Decoder.held, take_append_drop] at hheld

/-- In the middle of a stream of frames: the packets still to come, and the bytes of them that
are still under way. -/
structure Decoder.Reads (d : Decoder) (packets : List Bytes) (future : Bytes) : Prop where
  between : d.Between
  stream : d.held ++ future = Bridge.frames packets
  carried : ∀ pkt ∈ packets, Carried pkt

theorem Decoder.init_reads (hcarried : ∀ pkt ∈ packets, Carried pkt) :
    Decoder.init.Reads packets (Bridge.frames packets) :=
  ⟨Decoder.fresh_between 0, rfl, hcarried⟩

/-- A read in the middle of a stream completes some packets and hands them to the callback; if
it takes them all, the decoder holds the beginning of the next. -/
theorem Decoder.Reads.decode {σ : Type} (emit : σ → Bytes → σ × Bool) {d : Decoder} {p future : Bytes} (hreads : d.Reads packets (p ++ future)) (ctx : σ) :
    ∃ now rest, packets = now ++ rest ∧
      (decode emit d p ctx).ok = (emitAll emit ctx now).2 ∧
      (decode emit d p ctx).ctx = (emitAll emit ctx now).1 ∧
      ((emitAll emit ctx now).2 = true → (decode emit d p ctx).decoder.Reads rest future) ∧
      (future = [] → rest = []) ∧
      ∃ part, d.held ++ p = Bridge.frames now ++ part ∧
        ((emitAll emit ctx now).2 = true → (decode emit d p ctx).decoder.held = part ∧
          (decode emit d p ctx).decoder.completed = d.completed + UInt32.ofNat now.length) ∧
        ∀ pkt more, rest = pkt :: more → part.length < 4 + pkt.length := by
  have hstream := hreads.stream
  rw [← append_assoc] at hstream
  obtain ⟨now, rest, part, hpackets, hbytes, hpart, hshort⟩ := frames_cut hstream
  have hnow : ∀ pkt ∈ now, Carried pkt :=
    fun pkt hpkt => hreads.carried pkt (by rw [hpackets]; exact mem_append_left _ hpkt)
  have hrest : ∀ pkt ∈ rest, Carried pkt :=
    fun pkt hpkt => hreads.carried pkt (by rw [hpackets]; exact mem_append_right _ hpkt)
  have hdone : future = [] → rest = [] := by
    rintro rfl
    rcases rest with _ | ⟨pkt, more⟩
    · rfl
    have hlength := congrArg List.length hpart
    rw [append_nil, Bridge.frames_cons, length_append,
      Bridge.encodeCleanVpnFramedPkt_length] at hlength
    have hless := hshort pkt more rfl
    omega
  refine ⟨now, rest, hpackets, ?_⟩
  rw [decode_eq_fresh emit hreads.between, hbytes]
  cases htaken : (emitAll emit ctx now).2 with
  | false =>
    obtain ⟨hok, hctx⟩ := decode_frames_refused emit hnow d.completed part htaken
    exact ⟨hok, hctx, nofun, hdone, part, rfl, nofun, hshort⟩
  | true =>
    obtain ⟨later, hcount, hlater⟩ := decode_frames emit hnow d.completed part htaken
    rw [hlater]
    have hpiece : ∃ after : Decoder, after.Between ∧ after.held = part ∧ after.completed = later ∧
        Device.decode emit (Decoder.fresh later) part (emitAll emit ctx now).1 =
          ⟨after, (emitAll emit ctx now).1, true⟩ := by
      cases rest with
      | nil =>
        obtain ⟨rfl, -⟩ := append_eq_nil_iff.mp hpart
        exact ⟨_, Decoder.fresh_between later, rfl, rfl, rfl⟩
      | cons pkt more =>
        exact decode_part emit (hrest pkt mem_cons_self) hpart (hshort pkt more rfl) later _
    obtain ⟨after, hbetween, hheld, hcompleted, hpiece⟩ := hpiece
    rw [hpiece]
    exact ⟨rfl, rfl, fun _ => ⟨hbetween, by rw [hheld]; exact hpart, hrest⟩, hdone, part, rfl,
      fun _ => ⟨hheld, hcompleted.trans hcount⟩, hshort⟩

end Meshpn.Device

import Meshpn.Device.RxBatchSafety

/-!
What the exit's bridge forwards against what the device takes. The bridge looks at the header of
a packet; the decoder checks the transport as well and refuses the stream, and with it the
session, at the first packet that it does not take.
-/

namespace Meshpn.Device

open Meshpn.Lib List

def isIpv4Bridgeable (pkt : Bytes) : Bool :=
  if pkt.length < 20 then false
  else if byteAt pkt 0 / 16 ≠ 4 then false
  else
    let ihlWords := byteAt pkt 0 % 16
    if ihlWords < 5 then false
    else
      let hdrBytes := ihlWords * 4
      if pkt.length < hdrBytes then false
      else
        let totalLen := be16 pkt 2
        !(totalLen < hdrBytes || totalLen > pkt.length || totalLen > Bridge.maxPkt)

theorem bridgeable_length {pkt : Bytes} (h : isIpv4Bridgeable pkt = true) : 20 ≤ pkt.length := by
  unfold isIpv4Bridgeable at h
  split at h
  · cases h
  · omega

section Decode

variable {σ : Type} {emit : σ → Bytes → σ × Bool}

theorem fill_record {d : Decoder} {p : Bytes} {ctx : σ} (hok : (fill emit d p ctx).ok = true)
    (seen : List Bytes) :
    (fill record d p seen).ok = true ∧
      (fill record d p seen).decoder = (fill emit d p ctx).decoder ∧
      (fill record d p seen).rest = (fill emit d p ctx).rest := by
  unfold fill at hok ⊢
  dsimp only at hok ⊢
  split at hok
  case isFalse hpart =>
    simp only [if_neg hpart, and_self]
  rename_i hfull
  simp only [if_pos hfull]
  split at hok
  case isFalse => cases hok
  rename_i hvalid
  simp only [if_pos hvalid]
  rcases hemit : emit ctx (d.packet ++ p.take (min (d.length - d.packet.length) p.length)) with
    ⟨after, ok⟩
  rw [hemit] at hok
  cases ok with
  | false => cases hok
  | true => exact ⟨rfl, rfl, rfl⟩

theorem pass_record {d : Decoder} {byte : UInt8} {p : Bytes} {ctx : σ}
    (hok : (pass emit d byte p ctx).ok = true) (seen : List Bytes) :
    (pass record d byte p seen).ok = true ∧
      (pass record d byte p seen).decoder = (pass emit d byte p ctx).decoder ∧
      (pass record d byte p seen).rest = (pass emit d byte p ctx).rest := by
  unfold pass at hok ⊢
  dsimp only at hok ⊢
  split at hok
  case isFalse hheader =>
    simp only [if_neg hheader]
    exact fill_record hok seen
  rename_i hheader
  simp only [if_pos hheader]
  split at hok
  case isTrue hmore =>
    simp only [if_pos hmore, and_self]
  rename_i hlast
  simp only [if_neg hlast]
  split at hok
  case isTrue => cases hok
  rename_i hrange
  simp only [if_neg hrange]
  exact fill_record hok seen

theorem decode_record {d : Decoder} {p : Bytes} {ctx : σ}
    (hok : (decode emit d p ctx).ok = true) (seen : List Bytes) :
    (decode record d p seen).ok = true ∧
      (decode record d p seen).decoder = (decode emit d p ctx).decoder := by
  unfold decode at hok ⊢
  generalize p.length + 1 = fuel at hok ⊢
  induction fuel generalizing d p ctx seen with
  | zero => exact ⟨rfl, rfl⟩
  | succ fuel ih =>
    rcases p with _ | ⟨byte, p⟩
    · exact ⟨rfl, rfl⟩
    simp only [decodeLoop] at hok ⊢
    split at hok
    case isFalse => cases hok
    rename_i hpass
    obtain ⟨hsame, hdecoder, hrest⟩ := pass_record hpass seen
    rw [if_pos hsame, if_pos hpass, hdecoder, hrest]
    exact ih _ hok

theorem decode_all_valid {packets : List Bytes}
    (hlengths : ∀ pkt ∈ packets, 20 ≤ pkt.length ∧ pkt.length ≤ mtu) (completed : UInt32)
    (seen : List Bytes)
    (hok : (decode record (Decoder.fresh completed) (Bridge.frames packets) seen).ok = true) :
    ∀ pkt ∈ packets, Carried pkt := by
  induction packets generalizing completed seen with
  | nil => exact fun _ h => by cases h
  | cons pkt rest ih =>
    obtain ⟨hmin, hmax⟩ := hlengths pkt mem_cons_self
    rw [Bridge.frames_cons, decode_frame record hmin hmax] at hok
    split at hok
    case isFalse => cases hok
    rename_i hvalid
    intro other hother
    rcases mem_cons.mp hother with rfl | hin
    · exact ⟨hvalid, hmax⟩
    · exact ih (fun other hother => hlengths other (mem_cons_of_mem _ hother)) _ _ hok
        other hin

end Decode

/-- With a session and buffers, a batch goes through exactly when all its packets can be
normalised. -/
theorem injectLoop_iff {env : Nat → InjectEnv}
    (henv : ∀ i, (env i).session = true ∧ (env i).alloc = true) (i : Nat) (packets : List Bytes) :
    ((injectLoop env i packets).ok = true ↔ ∀ pkt ∈ packets, (normalise pkt).isSome = true) ∧
      ((injectLoop env i packets).ok = true →
        (injectLoop env i packets).stack = packets.filterMap normalise) := by
  induction packets generalizing i with
  | nil => exact ⟨by simp [injectLoop], fun _ => rfl⟩
  | cons pkt rest ih =>
    obtain ⟨hiff, hstack⟩ := ih (i + 1)
    rcases hnormal : normalise pkt with _ | q
    · simp [injectLoop, injectPacket, henv, hnormal]
    simp only [injectLoop, injectPacket, henv, hnormal, if_true, forall_mem_cons,
      Option.isSome_some, true_and]
    refine ⟨hiff, fun hok => ?_⟩
    rw [hstack hok, filterMap_cons_some hnormal]

namespace RxLink

/-- A read that returned bytes, by a session that goes on, with buffers for all packets. -/
structure Plain (r : Read) : Prop where
  nonempty : r.bytes ≠ []
  size : r.bytes.length ≤ socketRxBytes
  session : r.session = true
  env : ∀ i, (r.env i).session = true ∧ (r.env i).alloc = true

variable {udpRxBatchFrames : Nat}

variable {link : RxLink} {packets : List Bytes}

theorem step_ended {event : RxEvent} (hended : link.ended ≠ none) :
    link.step udpRxBatchFrames event = link := by
  unfold step
  rw [if_pos (Option.isSome_iff_ne_none.mpr hended)]

theorem step_live {event : RxEvent}
    (hlive : (link.step udpRxBatchFrames event).ended = none) : link.ended = none := by
  by_contra hended
  rw [step_ended hended] at hlive
  exact hended hlive

theorem read_stream {r : Read} (hr : Plain r)
    (hlive : (link.read udpRxBatchFrames r).ended = none) :
    (link.load udpRxBatchFrames r).2.2 = true ∧
      (link.read udpRxBatchFrames r).stream = (link.load udpRxBatchFrames r).1 := by
  unfold RxLink.read at hlive ⊢
  dsimp only at hlive ⊢
  rw [if_neg hr.nonempty] at hlive ⊢
  cases hok : (link.load udpRxBatchFrames r).2.2 with
  | false =>
    rw [if_pos hok] at hlive
    cases hlive
  | true =>
    rw [if_neg (by simp)]
    split <;> exact ⟨rfl, rfl⟩

theorem run_decoder {reads : List Read} (hreads : ∀ r ∈ reads, Plain r)
    (hlive : (run udpRxBatchFrames (reads.map RxEvent.read)).ended = none) :
    (decode record Decoder.init (reads.flatMap Read.bytes) []).ok = true ∧
      (decode record Decoder.init (reads.flatMap Read.bytes) []).decoder =
        (run udpRxBatchFrames (reads.map RxEvent.read)).stream.decoder := by
  induction reads using List.reverseRecOn with
  | nil => exact ⟨rfl, rfl⟩
  | append_singleton reads r ih =>
    have hrun : run udpRxBatchFrames ((reads ++ [r]).map RxEvent.read) =
        (run udpRxBatchFrames (reads.map RxEvent.read)).step udpRxBatchFrames (.read r) := by
      simp [run, foldl_append]
    rw [hrun] at hlive ⊢
    have hbefore := step_live hlive
    obtain ⟨hok, hdecoder⟩ := ih (fun q hq => hreads q (mem_append_left _ hq)) hbefore
    have hstep : (run udpRxBatchFrames (reads.map RxEvent.read)).step udpRxBatchFrames (.read r) =
        (run udpRxBatchFrames (reads.map RxEvent.read)).read udpRxBatchFrames r := by
      unfold step
      rw [if_neg (by simp [hbefore])]
    rw [hstep] at hlive ⊢
    obtain ⟨htaken, hstream⟩ := read_stream (hreads r (by simp)) hlive
    obtain ⟨hload, hresult⟩ := RxStream.feed_decoder (RxBatch.receivePacket udpRxBatchFrames)
      (run udpRxBatchFrames (reads.map RxEvent.read)).stream r.bytes r.now RxBatch.empty
    rw [RxLink.load, hresult] at htaken
    obtain ⟨hrecord, hsame⟩ := decode_record htaken
      (decode record Decoder.init (reads.flatMap Read.bytes) []).ctx
    have hinit : Decoder.init.Between := Decoder.fresh_between 0
    rw [flatMap_append, flatMap_singleton, decode_append record hinit]
    dsimp only
    rw [if_pos hok, hdecoder, hstream, RxLink.load, hload]
    exact ⟨hrecord, hsame⟩

/-- A loop that goes on has handed over and injected what ended in the stream so far. -/
structure Alive (link : RxLink) (packets : List Bytes) (bytes future : Bytes) : Prop where
  live : link.ended = none
  follows : ∃ rest, link.Follows packets bytes future rest
  wanted : ∀ pkt ∈ link.handed, (normalise pkt).isSome = true
  stack : link.stack = link.handed.filterMap normalise

/-- A read goes through exactly when the packets that end in it fit and can be normalised. -/
theorem Alive.read {bytes future : Bytes} {r : Read}
    (h : link.Alive packets bytes (r.bytes ++ future)) (hr : Plain r)
    (udpRxBatchFrames : Nat) :
    ((link.read udpRxBatchFrames r).ended = none ↔
      Fits udpRxBatchFrames (endingIn packets bytes.length (bytes ++ r.bytes).length) ∧
      ∀ pkt ∈ endingIn packets bytes.length (bytes ++ r.bytes).length,
        (normalise pkt).isSome = true) ∧
    ((link.read udpRxBatchFrames r).ended = none →
      (link.read udpRxBatchFrames r).Alive packets (bytes ++ r.bytes) future) := by
  obtain ⟨rest, hfollows⟩ := h.follows
  obtain ⟨now, later, hrest, hnow, hiff, hfit⟩ := hfollows.load udpRxBatchFrames hr.size
  rw [← hnow]
  unfold RxLink.read
  rcases hload : link.load udpRxBatchFrames r with ⟨stream, batch, ok⟩
  rw [hload] at hiff hfit
  dsimp only at hiff hfit ⊢
  rw [if_neg hr.nonempty]
  split
  case isTrue hrefused =>
    refine ⟨⟨fun hnone => (by cases hnone), fun hgood => ?_⟩, fun hnone => (by cases hnone)⟩
    rw [hiff.mpr hgood.1] at hrefused
    cases hrefused
  rename_i htaken
  have hok : ok = true := by simpa using htaken
  obtain ⟨rfl, hexact, hreads, hbytes, hshort⟩ := hfit (hiff.mp hok)
  have hslices : (RxBatch.empty.taking now).slices = now := hexact.slices rfl
  split
  case isTrue hempty =>
    obtain rfl := RxBatch.taking_slots hempty
    rw [append_nil] at hbytes
    refine ⟨⟨fun _ => ⟨hiff.mp hok, by simp⟩, fun _ => h.live⟩, fun _ => ?_⟩
    exact ⟨h.live, ⟨later, hfollows.packets.trans (by rw [hrest]; rfl), hbytes, hreads, hshort⟩,
      h.wanted, h.stack⟩
  case isFalse =>
    have hbatch : injectBatch r.session r.env (RxBatch.empty.taking now) =
        injectLoop r.env 0 now := by
      rw [injectBatch, hr.session, if_pos rfl, hslices]
    obtain ⟨hwanted, hstack⟩ := injectLoop_iff hr.env 0 now
    rw [hbatch]
    cases hdone : (injectLoop r.env 0 now).ok with
    | false =>
      refine ⟨⟨fun hnone => (by cases hnone), fun hgood => ?_⟩, fun hnone => (by cases hnone)⟩
      rw [hwanted.mpr hgood.2] at hdone
      cases hdone
    | true =>
      have hall := hwanted.mp hdone
      refine ⟨⟨fun _ => ⟨hiff.mp hok, hall⟩, fun _ => rfl⟩, fun _ => ?_⟩
      rw [(injectLoop_handed r.env 0 now).2.1 hdone, hstack hdone]
      refine ⟨rfl, ⟨later, ?_, hbytes, hreads, hshort⟩, ?_, ?_⟩
      · dsimp only
        rw [append_assoc, ← hrest]
        exact hfollows.packets
      · intro pkt hpkt
        rcases mem_append.mp hpkt with hold | hnew
        · exact h.wanted pkt hold
        · exact hall pkt hnew
      · dsimp only
        rw [h.stack, filterMap_append]

theorem mem_of_mem_within {n : Nat} {pkt : Bytes}
    (h : pkt ∈ within n packets) : pkt ∈ packets := by
  induction packets generalizing n with
  | nil => cases h
  | cons first rest ih =>
    unfold within at h
    split at h
    · rcases mem_cons.mp h with rfl | hin
      · exact mem_cons_self
      · exact mem_cons_of_mem _ (ih hin)
    · cases h

/-- Every read takes the packets that end in it. -/
def AllFit (udpRxBatchFrames : Nat) (packets : List Bytes) (reads : List Read) : Prop :=
  ∀ before r after, reads = before ++ r :: after →
    Fits udpRxBatchFrames (endingIn packets (before.flatMap Read.bytes).length
      (before.flatMap Read.bytes ++ r.bytes).length)

theorem run_alive (hcarried : ∀ pkt ∈ packets, Carried pkt)
    {reads : List Read} {future : Bytes} (hreads : ∀ r ∈ reads, Plain r)
    (hstream : reads.flatMap Read.bytes ++ future = Bridge.frames packets) :
    ((run udpRxBatchFrames (reads.map RxEvent.read)).ended = none →
      (run udpRxBatchFrames (reads.map RxEvent.read)).Alive packets
        (reads.flatMap Read.bytes) future ∧ AllFit udpRxBatchFrames packets reads) ∧
    ((∀ pkt ∈ packets, (normalise pkt).isSome = true) →
      AllFit udpRxBatchFrames packets reads →
      (run udpRxBatchFrames (reads.map RxEvent.read)).ended = none) := by
  induction reads using List.reverseRecOn generalizing future with
  | nil =>
    rw [flatMap_nil, nil_append] at hstream
    obtain ⟨rest, hfollows⟩ := (init_sound hcarried).live rfl
    rw [hstream]
    refine ⟨fun _ => ⟨⟨rfl, ⟨rest, hfollows⟩, by simp [run, init], rfl⟩, ?_⟩, fun _ _ => rfl⟩
    intro before r after hsplit
    simp at hsplit
  | append_singleton reads r ih =>
    have hrun : run udpRxBatchFrames ((reads ++ [r]).map RxEvent.read) =
        (run udpRxBatchFrames (reads.map RxEvent.read)).step udpRxBatchFrames (.read r) := by
      simp [run, foldl_append]
    rw [flatMap_append, flatMap_singleton] at hstream ⊢
    rw [append_assoc] at hstream
    obtain ⟨hforward, hback⟩ := ih (fun q hq => hreads q (mem_append_left _ hq)) hstream
    have hread : (run udpRxBatchFrames (reads.map RxEvent.read)).ended = none →
        (run udpRxBatchFrames (reads.map RxEvent.read)).step udpRxBatchFrames (.read r) =
        (run udpRxBatchFrames (reads.map RxEvent.read)).read udpRxBatchFrames r := by
      intro hbefore
      unfold step
      rw [if_neg (by simp [hbefore])]
    rw [hrun]
    constructor
    · intro hlive
      have hbefore := step_live hlive
      rw [hread hbefore] at hlive ⊢
      obtain ⟨halive, hfits⟩ := hforward hbefore
      obtain ⟨hiff, hnext⟩ := halive.read (hreads r (by simp)) udpRxBatchFrames
      refine ⟨hnext hlive, ?_⟩
      intro before q after hsplit
      rcases eq_nil_or_concat after with rfl | ⟨more, last, rfl⟩
      · obtain ⟨rfl, hlast⟩ := append_inj' hsplit rfl
        obtain rfl := (List.cons.inj hlast).1
        exact (hiff.mp hlive).1
      · rw [concat_eq_append, ← cons_append, ← append_assoc] at hsplit
        exact hfits before q more (append_inj' hsplit rfl).1
    · intro hwanted hfits
      have hbefore := hback hwanted (fun before q after hsplit =>
        hfits before q (after ++ [r]) (by rw [hsplit]; simp))
      obtain ⟨halive, -⟩ := hforward hbefore
      obtain ⟨hiff, -⟩ := halive.read (hreads r (by simp)) udpRxBatchFrames
      rw [hread hbefore]
      refine hiff.mpr ⟨hfits reads r [] rfl, fun pkt hpkt => hwanted pkt ?_⟩
      exact mem_of_mem_within (mem_of_mem_drop hpkt)

end RxLink

/-- The framed stream of packets that the bridge forwards leaves the session up, with every packet
delivered, exactly when each packet can be normalised, which includes that it is valid for the
device, and each read's packets fit a batch. -/
theorem exit_device_agree_iff (udpRxBatchFrames : Nat) {packets : List Bytes}
    (hbridged : ∀ pkt ∈ packets, isIpv4Bridgeable pkt = true ∧ pkt.length ≤ 1400)
    {reads : List Read} (hreads : ∀ r ∈ reads, RxLink.Plain r)
    (hstream : reads.flatMap Read.bytes = packets.flatMap Bridge.encodeCleanVpnFramedPkt) :
    ((RxLink.run udpRxBatchFrames (reads.map RxEvent.read)).ended = none ∧
      (RxLink.run udpRxBatchFrames (reads.map RxEvent.read)).stack =
        packets.filterMap normalise) ↔
    (∀ pkt ∈ packets, (normalise pkt).isSome = true) ∧
      RxLink.AllFit udpRxBatchFrames packets reads := by
  have hframes : reads.flatMap Read.bytes ++ [] = Bridge.frames packets := by
    rw [List.append_nil]
    exact hstream
  -- with the whole stream read, all packets were handed over
  have hall : (∀ pkt ∈ packets, Carried pkt) →
      (RxLink.run udpRxBatchFrames (reads.map RxEvent.read)).ended = none →
      (∀ pkt ∈ packets, (normalise pkt).isSome = true) ∧
        (RxLink.run udpRxBatchFrames (reads.map RxEvent.read)).stack =
          packets.filterMap normalise := by
    intro hcarried hlive
    obtain ⟨halive, -⟩ := (RxLink.run_alive hcarried hreads hframes).1 hlive
    obtain ⟨rest, hfollows⟩ := halive.follows
    have hnone : rest = [] := by
      have hheld : (RxLink.run udpRxBatchFrames
          (reads.map RxEvent.read)).stream.decoder.held = Bridge.frames rest := by
        simpa using hfollows.reads.stream
      cases rest with
      | nil => rfl
      | cons pkt more =>
        have hless := hfollows.short pkt more rfl
        rw [hheld, Bridge.frames_cons, List.length_append,
          Bridge.encodeCleanVpnFramedPkt_length] at hless
        omega
    have hhanded := hfollows.packets
    rw [hnone, List.append_nil] at hhanded
    rw [hhanded]
    exact ⟨halive.wanted, halive.stack⟩
  constructor
  · rintro ⟨hlive, -⟩
    have hcarried : ∀ pkt ∈ packets, Carried pkt := by
      have hok := (RxLink.run_decoder hreads hlive).1
      rw [hstream] at hok
      exact decode_all_valid (fun pkt hpkt =>
        ⟨bridgeable_length (hbridged pkt hpkt).1, (hbridged pkt hpkt).2⟩) 0 [] hok
    exact ⟨(hall hcarried hlive).1, ((RxLink.run_alive hcarried hreads hframes).1 hlive).2⟩
  · rintro ⟨hwanted, hfits⟩
    have hcarried : ∀ pkt ∈ packets, Carried pkt := by
      intro pkt hpkt
      refine ⟨?_, (hbridged pkt hpkt).2⟩
      by_contra hinvalid
      have hsome := hwanted pkt hpkt
      rw [normalise, clampMss, if_neg hinvalid] at hsome
      cases hsome
    have hlive := (RxLink.run_alive hcarried hreads hframes).2 hwanted hfits
    exact ⟨hlive, (hall hcarried hlive).2⟩

def smallPacket (protocol : UInt8) (payload : Bytes) : Bytes :=
  [0x45, 0, 0, 28, 0, 0, 0, 0, 64, protocol, 0, 0, 10, 99, 0, 1, 10, 99, 0, 2] ++ payload

def ping : Bytes := smallPacket 1 [8, 0, 0, 0, 0, 0, 0, 0]

def grePacket : Bytes := smallPacket 47 [0, 0, 8, 0, 0, 0, 0, 0]

def oneRead (packets : List Bytes) : Read :=
  ⟨packets.flatMap Bridge.encodeCleanVpnFramedPkt, 0, true, fun _ => ⟨true, true⟩⟩

theorem ping_delivered :
    (RxLink.run 32 ([oneRead [ping]].map RxEvent.read)).ended = none := by
  have hbridged : ∀ pkt ∈ [ping], isIpv4Bridgeable pkt = true ∧ pkt.length ≤ 1400 := by
    decide +kernel
  have hreads : ∀ r ∈ [oneRead [ping]], RxLink.Plain r := by
    intro r hr
    obtain rfl := List.mem_singleton.mp hr
    exact ⟨by decide +kernel, by decide +kernel, rfl, fun _ => ⟨rfl, rfl⟩⟩
  have hfits : RxLink.AllFit 32 [ping] [oneRead [ping]] := by
    intro before r after hsplit
    obtain ⟨rfl, rfl, rfl⟩ : before = [] ∧ r = oneRead [ping] ∧ after = [] := by
      cases before with
      | nil => simpa [eq_comm] using hsplit
      | cons first rest => simp at hsplit
    decide +kernel
  have hstream : [oneRead [ping]].flatMap Read.bytes =
      [ping].flatMap Bridge.encodeCleanVpnFramedPkt := by simp [oneRead]
  exact ((exit_device_agree_iff 32 hbridged hreads hstream).mpr ⟨by decide +kernel, hfits⟩).1

/-- The bridge forwards both packets; the device ends the session at the first and the second is
not delivered. -/
theorem unwanted_packet_ends_session :
    (∀ pkt ∈ [grePacket, ping], isIpv4Bridgeable pkt = true ∧ pkt.length ≤ 1400) ∧
      (RxLink.run 32 [.read (oneRead [grePacket, ping])]).ended = some .invalidFrame ∧
      (RxLink.run 32 [.read (oneRead [grePacket, ping])]).stack = [] := by
  decide +kernel

end Meshpn.Device

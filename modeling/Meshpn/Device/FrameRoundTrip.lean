import Meshpn.Device.FrameDecoding

/-!
The device and the exit speak one wire format. A batch sends the frames of its
packets, whatever the writes take of it, and these are the frames that the exit's
encoder writes, the exit's framer reads and the device's decoder reads. A
malformed frame ends the call that completes it.
-/

namespace Meshpn.Device

open Meshpn.Lib

theorem frameHeader_eq {n : Nat} (h : n ≤ mtu) : frameHeader n = Bytes.ofUInt32 n := by
  unfold mtu at h
  have hhigh : n / 2 ^ 24 = n / 65536 / 256 := by omega
  have hsecond : n / 2 ^ 16 = n / 65536 % 256 := by omega
  have hthird : n / 2 ^ 8 = n % 65536 / 256 := by omega
  have hlow : UInt8.ofNat n = UInt8.ofNat (n % 65536 % 256) := by
    apply UInt8.toNat_inj.mp
    simp only [UInt8.toNat_ofNat']
    omega
  rw [frameHeader, hhigh, hsecond, hthird, hlow]
  rfl

namespace TxBatch

/-- `load_tx_batch` on packets that are all in time: appends until the batch refuses one. -/
def load (batchFrames : Nat) : TxBatch → List Bytes → TxBatch × List Bytes
  | b, [] => (b, [])
  | b, pkt :: queue =>
    match b.append batchFrames pkt with
    | some b => load batchFrames b queue
    | none => (b, pkt :: queue)

theorem append_some {batchFrames : Nat} {b after : TxBatch} {pkt : Bytes}
    (h : b.append batchFrames pkt = some after) :
    b.used = 0 ∧ after.used = 0 ∧ after.data = b.data ++ Bridge.encodeCleanVpnFramedPkt pkt := by
  unfold append at h
  split at h
  case isTrue => contradiction
  rename_i hfits
  obtain rfl := Option.some.inj h
  have hused : b.used = 0 := by omega
  refine ⟨hused, hused, ?_⟩
  dsimp only
  rw [frameHeader_eq (by omega), List.append_assoc, Bridge.encodeCleanVpnFramedPkt]

theorem load_frames (batchFrames : Nat) {b : TxBatch} (hused : b.used = 0) (queue : List Bytes) :
    (b.load batchFrames queue).1.used = 0 ∧
      (b.load batchFrames queue).1.data ++ Bridge.frames (b.load batchFrames queue).2 =
        b.data ++ Bridge.frames queue := by
  induction queue generalizing b with
  | nil => exact ⟨hused, rfl⟩
  | cons pkt queue ih =>
    unfold load
    split
    case h_1 after happend =>
      obtain ⟨-, hafter, hdata⟩ := append_some happend
      obtain ⟨hdone, hsame⟩ := ih hafter
      refine ⟨hdone, ?_⟩
      rw [hsame, hdata, Bridge.frames_cons, List.append_assoc]
    case h_2 => exact ⟨hused, rfl⟩

theorem settle_data (fuel : Nat) (b : TxBatch) :
    (b.settle fuel).1.data = b.data ∧ (b.settle fuel).1.used = b.used := by
  induction fuel generalizing b with
  | zero => exact ⟨rfl, rfl⟩
  | succ fuel ih =>
    unfold settle
    split
    · exact ih _
    · exact ⟨rfl, rfl⟩

theorem advance_some {b : TxBatch} {sent : Nat} (hused : b.used ≤ b.data.length)
    (hsent : sent ≤ b.unsent.length) :
    ∃ after packets bytes, b.advance sent = some (after, packets, bytes) ∧
      after.used ≤ after.data.length ∧ after.unsent = b.unsent.drop sent := by
  have hlength : b.unsent.length = b.data.length - b.used := List.length_drop
  unfold advance
  rw [if_neg (by omega)]
  refine ⟨_, _, _, rfl, ?_, ?_⟩
  · rw [(settle_data _ _).1, (settle_data _ _).2]
    dsimp only
    omega
  · rw [unsent, (settle_data _ _).1, (settle_data _ _).2, unsent, List.drop_drop]

end TxBatch

/-- The sender of one connection: the packets that wait, the batch, and the bytes that the
socket took. -/
structure Transmitter where
  queue : List Bytes
  batch : TxBatch
  wire : Bytes
deriving DecidableEq

namespace Transmitter

def init : Transmitter := ⟨[], TxBatch.empty, []⟩

inductive Event where
  | enqueue (pkt : Bytes)
  -- the socket takes up to this many bytes
  | write (capacity : Nat)

/-- A batch is loaded once the last one is sent. -/
def load (batchFrames : Nat) (t : Transmitter) : Transmitter :=
  if t.batch.used = t.batch.data.length then
    let loaded := TxBatch.empty.load batchFrames t.queue
    { t with batch := loaded.1, queue := loaded.2 }
  else t

def write (t : Transmitter) (capacity : Nat) : Transmitter :=
  let sent := min capacity t.batch.unsent.length
  match t.batch.advance sent with
  | some (batch, _, _) => { t with batch := batch, wire := t.wire ++ t.batch.unsent.take sent }
  | none => t

def step (batchFrames : Nat) (t : Transmitter) : Event → Transmitter
  | .enqueue pkt => { t with queue := t.queue ++ [pkt] }
  | .write capacity => (t.load batchFrames).write capacity

def run (batchFrames : Nat) (events : List Event) : Transmitter :=
  events.foldl (step batchFrames) init

/-- Nothing waits and nothing of the batch is unsent. -/
def Drained (t : Transmitter) : Prop := t.queue = [] ∧ t.batch.unsent = []

instance (t : Transmitter) : Decidable t.Drained :=
  inferInstanceAs (Decidable (t.queue = [] ∧ t.batch.unsent = []))

/-- The packets accepted by a run. -/
def enqueued : List Event → List Bytes
  | [] => []
  | .enqueue pkt :: events => pkt :: enqueued events
  | .write _ :: events => enqueued events

/-- All bytes of the accepted packets, sent, unsent and waiting, are their frames in order. -/
structure Sends (t : Transmitter) (packets : List Bytes) : Prop where
  used : t.batch.used ≤ t.batch.data.length
  stream : t.wire ++ t.batch.unsent ++ Bridge.frames t.queue = Bridge.frames packets

variable {packets : List Bytes} {t : Transmitter}

theorem Sends.load (hsends : t.Sends packets)
    (batchFrames : Nat) : (t.load batchFrames).Sends packets := by
  unfold Transmitter.load
  split
  case isTrue hsent =>
    obtain ⟨hused, hframes⟩ := TxBatch.load_frames batchFrames (b := TxBatch.empty) rfl t.queue
    have hunsent : t.batch.unsent = [] := by rw [TxBatch.unsent, hsent, List.drop_length]
    have hall : (TxBatch.empty.load batchFrames t.queue).1.unsent =
        (TxBatch.empty.load batchFrames t.queue).1.data := by
      rw [TxBatch.unsent, hused, List.drop_zero]
    refine ⟨by rw [hused]; exact Nat.zero_le _, ?_⟩
    have hstream := hsends.stream
    rw [hunsent, List.append_nil] at hstream
    dsimp only
    rw [hall, List.append_assoc, hframes]
    exact hstream
  case isFalse => exact hsends

theorem Sends.write (hsends : t.Sends packets)
    (capacity : Nat) : (t.write capacity).Sends packets := by
  obtain ⟨after, packets, bytes, hadvance, hused, hrest⟩ :=
    TxBatch.advance_some hsends.used (Nat.min_le_right capacity t.batch.unsent.length)
  unfold Transmitter.write
  dsimp only
  rw [hadvance]
  refine ⟨hused, ?_⟩
  dsimp only
  rw [hrest, List.append_assoc t.wire, List.take_append_drop]
  exact hsends.stream

theorem step_sends (hsends : t.Sends packets)
    (batchFrames : Nat) (event : Event) :
    (t.step batchFrames event).Sends (packets ++ enqueued [event]) := by
  cases event with
  | enqueue pkt =>
    refine ⟨hsends.used, ?_⟩
    have hstream := hsends.stream
    simp only [step, enqueued, Bridge.frames_append, ← hstream, List.append_assoc]
  | write capacity =>
    simp only [step, enqueued, List.append_nil]
    exact (hsends.load batchFrames).write capacity

theorem foldl_sends {t : Transmitter} {packets : List Bytes} (hsends : t.Sends packets)
    (batchFrames : Nat) (events : List Event) :
    (events.foldl (step batchFrames) t).Sends (packets ++ enqueued events) := by
  induction events generalizing t packets with
  | nil => simpa [enqueued] using hsends
  | cons event events ih =>
    have hstep := ih (step_sends hsends batchFrames event)
    cases event with
    | enqueue pkt => simpa [enqueued] using hstep
    | write capacity => simpa [enqueued] using hstep

theorem run_sends (batchFrames : Nat) (events : List Event) :
    (run batchFrames events).Sends (enqueued events) :=
  @foldl_sends init [] ⟨Nat.le_refl _, rfl⟩ batchFrames events

/-- The bytes taken by the socket are the frames of the first packets, and then part of one. -/
theorem run_wire (batchFrames : Nat) (events : List Event) :
    (run batchFrames events).wire ++
        ((run batchFrames events).batch.unsent ++ Bridge.frames (run batchFrames events).queue) =
      Bridge.frames (enqueued events) := by
  rw [← List.append_assoc]
  exact (run_sends batchFrames events).stream

end Transmitter

theorem emitAll_record (packets already : List Bytes) :
    emitAll record already packets = (already ++ packets, true) := by
  induction packets generalizing already with
  | nil => simp [emitAll]
  | cons pkt packets ih => simp [emitAll, record, ih]

/-- The packets handed over on the reads of a connection, up to the first error. -/
def receive (reads : List Bytes) : Decoded (List Bytes) := decodeAll record Decoder.init reads []

/-- Any reads of the beginning of a stream hand over its first packets, and all of them once the
stream is here to its end. -/
theorem receive_stream {packets reads : List Bytes} {future : Bytes}
    (hcarried : ∀ pkt ∈ packets, Carried pkt)
    (hstream : reads.flatten ++ future = Bridge.frames packets) :
    (receive reads).ok = true ∧
      ∃ rest, packets = (receive reads).ctx ++ rest ∧ (future = [] → rest = []) := by
  have hreads : Decoder.init.Reads packets (reads.flatten ++ future) := by
    rw [hstream]
    exact Decoder.init_reads hcarried
  obtain ⟨now, rest, hpackets, hok, hctx, -, hdone, -⟩ := hreads.decode record []
  rw [emitAll_record] at hok hctx
  unfold receive
  rw [decodeAll_eq record hreads.between, hok, hctx]
  exact ⟨rfl, rest, hpackets, hdone⟩

/-- A frame that no packet may come in: its length is not accepted, or it is complete and not
an IPv4 packet of the tunnel. -/
def Malformed (bytes : Bytes) : Prop :=
  (∃ header rest, bytes = header ++ rest ∧ header.length = 4 ∧
    (frameLength header < 20 ∨ frameLength header > mtu)) ∨
  ∃ pkt rest, bytes = Bridge.encodeCleanVpnFramedPkt pkt ++ rest ∧ 20 ≤ pkt.length ∧
    pkt.length ≤ mtu ∧ ipv4Valid pkt = false

theorem decode_malformed {bytes : Bytes} (hbad : Malformed bytes) (completed : UInt32)
    (packets : List Bytes) :
    (decode record (Decoder.fresh completed) bytes packets).ok = false ∧
      (decode record (Decoder.fresh completed) bytes packets).ctx = packets := by
  obtain ⟨header, rest, rfl, hheader, hrange⟩ | ⟨pkt, rest, rfl, hmin, hmax, hinvalid⟩ := hbad
  · rw [decode_badLength record hheader hrange]
    exact ⟨rfl, rfl⟩
  · rw [decode_frame record hmin hmax, hinvalid]
    exact ⟨rfl, rfl⟩

/-- The call that completes a malformed frame fails, and the packets handed over are those
before that frame. -/
theorem receive_malformed {packets earlier : List Bytes} {chunk bad : Bytes}
    (hcarried : ∀ pkt ∈ packets, Carried pkt) (hearlier : (receive earlier).ok = true)
    (hstream : earlier.flatten ++ chunk = Bridge.frames packets ++ bad) (hbad : Malformed bad) :
    (decode record (receive earlier).decoder chunk (receive earlier).ctx).ok = false ∧
      (decode record (receive earlier).decoder chunk (receive earlier).ctx).ctx = packets := by
  have hfresh : Decoder.init.Between := Decoder.fresh_between 0
  have hall : decode record Decoder.init (earlier.flatten ++ chunk) [] =
      decode record (receive earlier).decoder chunk (receive earlier).ctx := by
    unfold receive at hearlier ⊢
    rw [decodeAll_eq record hfresh] at hearlier ⊢
    rw [decode_append record hfresh]
    exact if_pos hearlier
  have htaken : (emitAll record [] packets).2 = true := by rw [emitAll_record]
  obtain ⟨later, -, hlater⟩ := decode_frames record hcarried 0 bad htaken
  rw [← hall, hstream]
  rw [emitAll_record, List.nil_append] at hlater
  exact hlater ▸ decode_malformed hbad later packets

theorem framer_stream {packets chunks : List Bytes} {future : Bytes}
    (hcarried : ∀ pkt ∈ packets, Carried pkt)
    (hstream : chunks.flatten ++ future = Bridge.frames packets) :
    (Bridge.StreamFramer.init.pushAll chunks).fault = none ∧
      ∃ rest, packets = (Bridge.StreamFramer.init.pushAll chunks).packets ++ rest ∧
        (future = [] → rest = []) := by
  have hreads : Bridge.StreamFramer.init.Reads packets (chunks.flatten ++ future) := by
    refine ⟨rfl, ?_, fun pkt hpkt => (hcarried pkt hpkt).framable⟩
    exact hstream
  have hnone : chunks.flatten ++ future = [] → packets = [] := by
    intro hempty
    apply Bridge.StreamFramer.frames_ne_nil
    rw [← hstream, hempty]
    decide
  obtain ⟨rest, hpackets, hfault, -, hdone⟩ := Bridge.StreamFramer.pushAll_reads hreads hnone
  exact ⟨hfault, rest, hpackets, hdone⟩

/-- Packets of 20 to 1400 bytes cross the tunnel in order, from the device's batches to either
end and from the exit's encoder to the device, however the stream is cut. Before the batches
are drained the packets handed over are the first ones. A malformed frame fails the call that
completes it and nothing behind it is handed over. -/
theorem device_frames_round_trip (packets : List Bytes)
    (hcarried : ∀ pkt ∈ packets, ipv4Valid pkt = true ∧ 20 ≤ pkt.length ∧ pkt.length ≤ 1400) :
    (∀ batchFrames events, Transmitter.enqueued events = packets →
      ∀ reads : List Bytes, reads.flatten = (Transmitter.run batchFrames events).wire →
        (receive reads).ok = true ∧
        (receive reads).ctx <+: packets ∧
        (Bridge.StreamFramer.init.pushAll reads).fault = none ∧
        (Bridge.StreamFramer.init.pushAll reads).packets <+: packets ∧
        ((Transmitter.run batchFrames events).Drained →
          (receive reads).ctx = packets ∧
          (Bridge.StreamFramer.init.pushAll reads).packets = packets)) ∧
    (∀ reads : List Bytes, reads.flatten = packets.flatMap Bridge.encodeCleanVpnFramedPkt →
      (receive reads).ok = true ∧ (receive reads).ctx = packets) ∧
    ∀ earlier chunk bad, (receive earlier).ok = true →
      earlier.flatten ++ chunk = packets.flatMap Bridge.encodeCleanVpnFramedPkt ++ bad →
      Malformed bad →
      (decode record (receive earlier).decoder chunk (receive earlier).ctx).ok = false ∧
      (decode record (receive earlier).decoder chunk (receive earlier).ctx).ctx = packets := by
  have hcarried : ∀ pkt ∈ packets, Carried pkt :=
    fun pkt hpkt => ⟨(hcarried pkt hpkt).1, (hcarried pkt hpkt).2.2⟩
  refine ⟨?_, ?_, ?_⟩
  · intro batchFrames events henqueued reads hreads
    have hwire := Transmitter.run_wire batchFrames events
    rw [← hreads, henqueued] at hwire
    obtain ⟨hok, rest, hpackets, hdone⟩ := receive_stream hcarried hwire
    obtain ⟨hfault, rest', hpackets', hdone'⟩ := framer_stream hcarried hwire
    refine ⟨hok, ⟨rest, hpackets.symm⟩, hfault, ⟨rest', hpackets'.symm⟩, ?_⟩
    rintro ⟨hqueue, hunsent⟩
    have hnothing : (Transmitter.run batchFrames events).batch.unsent ++
        Bridge.frames (Transmitter.run batchFrames events).queue = [] := by
      rw [hunsent, hqueue]
      rfl
    rw [hdone hnothing, List.append_nil] at hpackets
    rw [hdone' hnothing, List.append_nil] at hpackets'
    exact ⟨hpackets.symm, hpackets'.symm⟩
  · intro reads hreads
    have hstream : reads.flatten ++ [] = Bridge.frames packets := by
      rw [List.append_nil]
      exact hreads
    obtain ⟨hok, rest, hpackets, hdone⟩ := receive_stream hcarried hstream
    rw [hdone rfl, List.append_nil] at hpackets
    exact ⟨hok, hpackets.symm⟩
  · intro earlier chunk bad hearlier hstream hbad
    exact receive_malformed hcarried hearlier hstream hbad

/-- Two fragments, sent in batches of one frame by writes of thirty bytes. -/
theorem two_fragments_cross :
    let first : Bytes :=
      [69, 0, 0, 20, 0, 0, 32, 0, 64, 17, 0, 0, 10, 99, 0, 2, 1, 1, 1, 1]
    let second : Bytes :=
      [69, 0, 0, 21, 0, 0, 0, 1, 64, 17, 0, 0, 10, 99, 0, 2, 1, 1, 1, 1, 7]
    let events : List Transmitter.Event :=
      [.enqueue first, .write 3, .enqueue second, .write 30, .write 30]
    (Transmitter.run 1 events).Drained ∧
      (receive [(Transmitter.run 1 events).wire]).ctx = [first, second] := by
  intro first second events
  have hcarried : ∀ pkt ∈ [first, second],
      ipv4Valid pkt = true ∧ 20 ≤ pkt.length ∧ pkt.length ≤ 1400 := by decide
  have hdrained : (Transmitter.run 1 events).Drained := by decide
  refine ⟨hdrained, ?_⟩
  exact (((device_frames_round_trip [first, second] hcarried).1 1 events rfl
    [(Transmitter.run 1 events).wire] (List.append_nil _)).2.2.2.2 hdrained).1

end Meshpn.Device

import Meshpn.Lib.Bytes

/-!
The coalescing send buffer of a transport, `send-buffer.js`. Small packets
are gathered into one frame of the underlying channel; a frame with a single
packet is that packet as it is, so the receiver tells the two apart by the
marker byte.

Whether the channel is ready is asked again and again during one call. The
answers are a list that each question takes the next element of; a list that
has run out answers no.
-/

namespace Meshpn.Transport

open Meshpn.Lib List

def frameMarker : UInt8 := 0xFE

def headerSize : Nat := 3

/-- What a packet takes up in a frame. -/
def entrySize (packet : Bytes) : Nat := 2 + packet.length

structure BufferOptions where
  maxFrameSize : Nat
  maxQueuePackets : Nat

structure SendBuffer where
  packets : List Bytes
  currentSize : Nat
  timer : Bool
  /-- What `sendFn` was called with, oldest first. -/
  frames : List Bytes
  /-- A length did not fit its field and the write threw. -/
  thrown : Bool
  deriving DecidableEq, Repr

def SendBuffer.empty : SendBuffer := ⟨[], headerSize, false, [], false⟩

def entry (packet : Bytes) : Bytes := Bytes.ofUInt16 packet.length ++ packet

def encodeFrame (packets : List Bytes) : Bytes :=
  frameMarker :: Bytes.ofUInt16 packets.length ++ packets.flatMap entry

/-- The fields of the frame hold the count and every length. -/
def framable (packets : List Bytes) : Bool :=
  packets.length < 65536 && packets.all (·.length < 65536)

def SendBuffer.sendFrame (b : SendBuffer) (packets : List Bytes) : SendBuffer :=
  match packets with
  | [packet] => { b with frames := b.frames ++ [packet] }
  | _ =>
    if framable packets then { b with frames := b.frames ++ [encodeFrame packets] }
    else { b with thrown := true }

/-- The inner loop of `_flush`: how many packets the next frame takes. -/
def chunkCount (maxFrameSize : Nat) : Nat → Nat → List Bytes → Nat
  | _, count, [] => count
  | batchSize, count, packet :: rest =>
    if batchSize + entrySize packet > maxFrameSize && count > 0 then count
    else chunkCount maxFrameSize (batchSize + entrySize packet) (count + 1) rest

/-- `this._sendFrame(this.packets.splice(0, count))`. -/
def SendBuffer.sendChunk (b : SendBuffer) (o : BufferOptions) : SendBuffer :=
  let count := chunkCount o.maxFrameSize headerSize 0 b.packets
  { b.sendFrame (b.packets.take count) with packets := b.packets.drop count }

/-- `while (this.packets.length > 0 && this.isReady())`. -/
def SendBuffer.drainChunks (o : BufferOptions) :
    List Bool → SendBuffer → SendBuffer × List Bool
  | [], b => (b, [])
  | ready :: answers, b =>
    if b.packets.isEmpty then (b, ready :: answers)
    else if ready then drainChunks o answers (b.sendChunk o)
    else (b, answers)

def queuedSize (packets : List Bytes) : Nat := headerSize + (packets.map entrySize).sum

def SendBuffer.flush (b : SendBuffer) (o : BufferOptions) (answers : List Bool) :
    SendBuffer × List Bool :=
  if b.packets.isEmpty then ({ b with timer := false }, answers)
  else
    match answers with
    | [] => ({ b with timer := true }, [])
    | false :: rest => ({ b with timer := true }, rest)
    | true :: rest =>
      if b.currentSize ≤ o.maxFrameSize then
        ({ b.sendFrame b.packets with
            packets := [], currentSize := headerSize, timer := false }, rest)
      else
        let (drained, left) := b.drainChunks o rest
        ({ drained with
            currentSize := queuedSize drained.packets
            timer := !drained.packets.isEmpty }, left)

/-- The flush before a packet that would not fit the frame any more. -/
def SendBuffer.makeRoom (b : SendBuffer) (o : BufferOptions) (data : Bytes)
    (answers : List Bool) : SendBuffer × List Bool :=
  if b.currentSize + entrySize data > o.maxFrameSize && !b.packets.isEmpty then
    b.flush o answers
  else (b, answers)

/-- `push` on a queue that is not full. -/
def SendBuffer.enqueue (b : SendBuffer) (o : BufferOptions) (data : Bytes)
    (answers : List Bool) : SendBuffer × List Bool :=
  let (roomy, left) := b.makeRoom o data answers
  let filled := { roomy with
    packets := roomy.packets ++ [data], currentSize := roomy.currentSize + entrySize data }
  if filled.currentSize ≥ o.maxFrameSize then filled.flush o left
  else ({ filled with timer := true }, left)

def SendBuffer.full (b : SendBuffer) (o : BufferOptions) : Bool :=
  b.packets.length ≥ o.maxQueuePackets

/-- `push`: refused by a full queue, with nothing changed. -/
def SendBuffer.push (b : SendBuffer) (o : BufferOptions) (data : Bytes)
    (answers : List Bool) : Bool × SendBuffer × List Bool :=
  if b.full o then (false, b, answers)
  else (true, b.enqueue o data answers)

def SendBuffer.resume (b : SendBuffer) (o : BufferOptions) (answers : List Bool) :
    SendBuffer × List Bool :=
  if b.packets.isEmpty then (b, answers) else b.flush o answers

/-- The timer callback: the handle is dropped before the flush. -/
def SendBuffer.fire (b : SendBuffer) (o : BufferOptions) (answers : List Bool) : SendBuffer :=
  if b.timer then ({ b with timer := false }.flush o answers).1 else b

/-- The entries of an aggregated frame; `none` where it is truncated. -/
def unframeEntries : Nat → Bytes → Option (List Bytes)
  | 0, _ => some []
  | count + 1, high :: low :: rest =>
    let length := Bytes.toUInt16 high low
    if rest.length < length then none
    else (unframeEntries count (rest.drop length)).map (rest.take length :: ·)
  | _ + 1, _ => none

def unframe : Bytes → Option (List Bytes)
  | marker :: high :: low :: rest =>
    if marker = frameMarker then unframeEntries (Bytes.toUInt16 high low) rest
    else some [marker :: high :: low :: rest]
  | data => some [data]

/-- A packet that an unframing receiver does not take for a frame. Packets of
the mesh begin with their version byte. -/
def Plain (packet : Bytes) : Prop := unframe packet = some [packet]

theorem unframeEntries_flatMap (packets : List Bytes)
    (hlengths : ∀ packet ∈ packets, packet.length < 65536) :
    unframeEntries packets.length (packets.flatMap entry) = some packets := by
  induction packets with
  | nil => rfl
  | cons packet rest ih =>
    have hpacket : packet.length < 65536 := hlengths packet (by simp)
    have hrest := ih (fun p hp => hlengths p (by simp [hp]))
    have hlength := Bytes.toUInt16_ofNat hpacket
    simp only [flatMap_cons, entry, Bytes.ofUInt16, cons_append, nil_append,
      length_cons, unframeEntries, hlength]
    rw [if_neg (by simp), drop_left, take_left]
    rw [hrest]
    rfl

variable {o : BufferOptions} {packets : List Bytes} {b : SendBuffer}

theorem unframe_encodeFrame (h : framable packets = true) :
    unframe (encodeFrame packets) = some packets := by
  simp only [framable, Bool.and_eq_true, decide_eq_true_eq, all_eq_true] at h
  simp only [encodeFrame, Bytes.ofUInt16, cons_append, nil_append, unframe, if_true,
    Bytes.toUInt16_ofNat h.1]
  exact unframeEntries_flatMap packets h.2

/-- What the other side reads out of the frames, in order. -/
def received (frames : List Bytes) : List Bytes := frames.flatMap (fun f => (unframe f).getD [])

/-- Everything the buffer has taken and not dropped: delivered, then queued. -/
def SendBuffer.stream (b : SendBuffer) : List Bytes := received b.frames ++ b.packets

/-- The bookkeeping of the buffer, over packets that may be sent as they are. -/
structure SendBuffer.Ok (b : SendBuffer) : Prop where
  size : b.currentSize = queuedSize b.packets
  plain : ∀ packet ∈ b.packets, Plain packet
  calm : b.thrown = false

theorem SendBuffer.empty_ok : SendBuffer.empty.Ok := ⟨rfl, nofun, rfl⟩

theorem received_append (first second : List Bytes) :
    received (first ++ second) = received first ++ received second := by
  simp [received]

theorem framable_of_queuedSize (h : queuedSize packets ≤ 65535) :
    framable packets = true := by
  have hsum : ∀ ps : List Bytes, 2 * ps.length ≤ (ps.map entrySize).sum ∧
      ∀ p ∈ ps, p.length ≤ (ps.map entrySize).sum := by
    intro ps
    induction ps with
    | nil => simp
    | cons p rest ih =>
      obtain ⟨hcount, hall⟩ := ih
      have hentry : entrySize p = 2 + p.length := rfl
      simp only [length_cons, map_cons, sum_cons, mem_cons, forall_eq_or_imp]
      refine ⟨by omega, by omega, fun q hq => ?_⟩
      have := hall q hq
      omega
  obtain ⟨hcount, hall⟩ := hsum packets
  unfold queuedSize at h
  simp only [framable, Bool.and_eq_true, decide_eq_true_eq, all_eq_true]
  refine ⟨by omega, fun p hp => ?_⟩
  have := hall p hp
  omega

/-- Packets that go out together: one as it is, or several that fit. -/
def Sendable (o : BufferOptions) (packets : List Bytes) : Prop :=
  packets.length = 1 ∨ queuedSize packets ≤ o.maxFrameSize

/-- What `_sendFrame` hands over for packets whose lengths fit their fields. -/
def frameOf : List Bytes → Bytes
  | [packet] => packet
  | packets => encodeFrame packets

theorem SendBuffer.sendFrame_eq
    (hfields : packets.length = 1 ∨ framable packets = true) :
    b.sendFrame packets = { b with frames := b.frames ++ [frameOf packets] } := by
  unfold SendBuffer.sendFrame
  split
  case h_1 packet => rfl
  rename_i hmany
  have hframe : frameOf packets = encodeFrame packets := by
    unfold frameOf
    split
    case h_1 packet => exact absurd rfl (hmany packet)
    case h_2 => rfl
  have hframable : framable packets = true := by
    rcases hfields with hone | hframable
    · obtain ⟨packet, rfl⟩ := length_eq_one_iff.mp hone
      exact absurd rfl (hmany packet)
    · exact hframable
  rw [if_pos hframable, hframe]

theorem unframe_frameOf
    (hfields : packets.length = 1 ∨ framable packets = true)
    (hplain : ∀ packet ∈ packets, Plain packet) : unframe (frameOf packets) = some packets := by
  unfold frameOf
  split
  case h_1 packet => exact hplain packet (by simp)
  rename_i hmany
  rcases hfields with hone | hframable
  · obtain ⟨packet, rfl⟩ := length_eq_one_iff.mp hone
    exact absurd rfl (hmany packet)
  · exact unframe_encodeFrame hframable

/-- Whatever of these packets goes out together fits the fields of a frame. -/
def Framing (o : BufferOptions) (packets : List Bytes) : Prop :=
  ∀ chunk : List Bytes, chunk.Sublist packets → Sendable o chunk →
    chunk.length = 1 ∨ framable chunk = true

theorem Framing.sublist {packets fewer : List Bytes}
    (hframing : Framing o packets) (hsublist : fewer.Sublist packets) : Framing o fewer :=
  fun chunk hchunk => hframing chunk (hchunk.trans hsublist)

theorem framing_of_size (hsize : o.maxFrameSize ≤ 65535)
    (packets : List Bytes) : Framing o packets :=
  fun _ _ hsend => hsend.imp id fun hfits => framable_of_queuedSize (hfits.trans hsize)

theorem chunkCount_spec (maxFrameSize : Nat) (packets : List Bytes) (batchSize count : Nat) :
    ∃ taken ≤ packets.length, chunkCount maxFrameSize batchSize count packets = count + taken ∧
      (packets ≠ [] → 0 < count + taken) ∧
      (taken = 0 ∨ count = 0 ∧ taken = 1 ∨
        batchSize + ((packets.take taken).map entrySize).sum ≤ maxFrameSize) := by
  induction packets generalizing batchSize count with
  | nil => exact ⟨0, by simp, rfl, by simp, Or.inl rfl⟩
  | cons packet rest ih =>
    unfold chunkCount
    split
    case isTrue hfull =>
      simp only [Bool.and_eq_true, decide_eq_true_eq] at hfull
      exact ⟨0, by simp, rfl, fun _ => by omega, Or.inl rfl⟩
    rename_i hroom
    obtain ⟨taken, hbound, hcount, _, hfits⟩ := ih (batchSize + entrySize packet) (count + 1)
    refine ⟨taken + 1, by simpa using hbound, by omega, fun _ => by omega, Or.inr ?_⟩
    simp only [Bool.and_eq_true, decide_eq_true_eq, not_and_or, Nat.not_lt] at hroom
    rcases hfits with hnone | ⟨hzero, _⟩ | hsum
    · subst hnone
      by_cases hfirst : count = 0
      · exact Or.inl ⟨hfirst, rfl⟩
      right
      simp only [take_succ_cons, take_zero, map_cons, map_nil,
        sum_cons, sum_nil]
      omega
    · omega
    · right
      simp only [take_succ_cons, map_cons, sum_cons]
      omega

theorem chunk_sendable (o : BufferOptions) (h : packets ≠ []) :
    Sendable o (packets.take (chunkCount o.maxFrameSize headerSize 0 packets)) := by
  obtain ⟨taken, hbound, hcount, hsome, hfits⟩ :=
    chunkCount_spec o.maxFrameSize packets headerSize 0
  have hpositive := hsome h
  rw [hcount, Nat.zero_add]
  rcases hfits with hnone | ⟨_, hone⟩ | hsum
  · omega
  · left
    rw [length_take]
    omega
  · exact Or.inr hsum

/-- From `b` to `after` the queue has lost these chunks from its front, each sent
as one frame. -/
structure Emits (o : BufferOptions) (b after : SendBuffer) (chunks : List (List Bytes)) :
    Prop where
  frames : after.frames = b.frames ++ chunks.map frameOf
  packets : b.packets = chunks.flatten ++ after.packets
  thrown : after.thrown = b.thrown
  sendable : ∀ chunk ∈ chunks, Sendable o chunk
  fields : ∀ chunk ∈ chunks, chunk.length = 1 ∨ framable chunk = true

theorem Emits.none {b after : SendBuffer} (hframes : after.frames = b.frames)
    (hpackets : after.packets = b.packets) (hthrown : after.thrown = b.thrown) :
    Emits o b after [] where
  frames := by simp [hframes]
  packets := by simp [hpackets]
  thrown := hthrown
  sendable := by simp
  fields := by simp

theorem Emits.trans {first second third : SendBuffer}
    {early late : List (List Bytes)} (hearly : Emits o first second early)
    (hlate : Emits o second third late) : Emits o first third (early ++ late) where
  frames := by simp [hlate.frames, hearly.frames]
  packets := by simp [hearly.packets, hlate.packets]
  thrown := hlate.thrown.trans hearly.thrown
  sendable chunk hchunk :=
    (mem_append.mp hchunk).elim (hearly.sendable chunk) (hlate.sendable chunk)
  fields chunk hchunk :=
    (mem_append.mp hchunk).elim (hearly.fields chunk) (hlate.fields chunk)

section Emitting

variable {o : BufferOptions} {b after : SendBuffer} {chunks : List (List Bytes)}
  (hemits : Emits o b after chunks)
include hemits

theorem Emits.suffix : after.packets <:+ b.packets := ⟨_, hemits.packets.symm⟩

theorem Emits.plain (hplain : ∀ packet ∈ b.packets, Plain packet) :
    ∀ packet ∈ after.packets, Plain packet :=
  fun packet hpacket => hplain packet (hemits.suffix.mem hpacket)

theorem Emits.chunk_plain (hplain : ∀ packet ∈ b.packets, Plain packet) {chunk : List Bytes}
    (hchunk : chunk ∈ chunks) : ∀ packet ∈ chunk, Plain packet := by
  intro packet hpacket
  apply hplain packet
  rw [hemits.packets]
  exact mem_append_left _ (mem_flatten.mpr ⟨chunk, hchunk, hpacket⟩)

theorem Emits.stream (hplain : ∀ packet ∈ b.packets, Plain packet) :
    after.stream = b.stream := by
  have hread : received (chunks.map frameOf) = chunks.flatten := by
    unfold received
    rw [flatMap_map, ← flatMap_id]
    refine flatMap_congr fun chunk hchunk => ?_
    rw [unframe_frameOf (hemits.fields chunk hchunk) (hemits.chunk_plain hplain hchunk)]
    rfl
  rw [SendBuffer.stream, SendBuffer.stream, hemits.frames, received_append, hread, hemits.packets,
    append_assoc]

end Emitting

theorem SendBuffer.sendChunk_emits
    (hframing : Framing o b.packets) (hsome : b.packets ≠ []) :
    ∃ chunks, Emits o b (b.sendChunk o) chunks := by
  have hsend := chunk_sendable o hsome
  have hfields := hframing _ (take_sublist _ _) hsend
  refine ⟨[b.packets.take (chunkCount o.maxFrameSize headerSize 0 b.packets)], ?_, ?_, ?_, ?_, ?_⟩
  · simp [SendBuffer.sendChunk, SendBuffer.sendFrame_eq hfields]
  · simp [SendBuffer.sendChunk]
  · simp [SendBuffer.sendChunk, SendBuffer.sendFrame_eq hfields]
  · simpa using hsend
  · simpa using hfields

theorem SendBuffer.drainChunks_emits (answers : List Bool)
    (hframing : Framing o b.packets) :
    ∃ chunks, Emits o b (b.drainChunks o answers).1 chunks := by
  induction answers generalizing b with
  | nil => exact ⟨[], .none rfl rfl rfl⟩
  | cons ready answers ih =>
    unfold SendBuffer.drainChunks
    split
    case isTrue => exact ⟨[], .none rfl rfl rfl⟩
    rename_i hsome
    split
    case isTrue =>
      obtain ⟨early, hearly⟩ := SendBuffer.sendChunk_emits hframing (by simpa using hsome)
      obtain ⟨late, hlate⟩ := ih (hframing.sublist hearly.suffix.sublist)
      exact ⟨_, hearly.trans hlate⟩
    case isFalse => exact ⟨[], .none rfl rfl rfl⟩

/-- A flush sends some chunks from the front; what it leaves is counted, and has a timer. -/
theorem SendBuffer.flush_emits
    (hframing : Framing o b.packets) (hsize : b.currentSize = queuedSize b.packets)
    (answers : List Bool) :
    (∃ chunks, Emits o b (b.flush o answers).1 chunks) ∧
      (b.flush o answers).1.currentSize = queuedSize (b.flush o answers).1.packets ∧
      ((b.flush o answers).1.packets ≠ [] → (b.flush o answers).1.timer = true) := by
  unfold SendBuffer.flush
  split
  case isTrue hempty => exact ⟨⟨[], .none rfl rfl rfl⟩, hsize, fun h => by simp_all⟩
  rename_i hsome
  split
  case h_1 => exact ⟨⟨[], .none rfl rfl rfl⟩, hsize, fun _ => rfl⟩
  case h_2 => exact ⟨⟨[], .none rfl rfl rfl⟩, hsize, fun _ => rfl⟩
  rename_i rest
  split
  case isTrue hfits =>
    have hsend : Sendable o b.packets := Or.inr (hsize ▸ hfits)
    have hfields := hframing b.packets (List.Sublist.refl _) hsend
    refine ⟨⟨[b.packets], ?_, ?_, ?_, ?_, ?_⟩, rfl, fun h => absurd rfl h⟩
    · simp [SendBuffer.sendFrame_eq hfields]
    · simp
    · simp [SendBuffer.sendFrame_eq hfields]
    · simpa using hsend
    · simpa using hfields
  case isFalse =>
    obtain ⟨chunks, hdrained⟩ := SendBuffer.drainChunks_emits rest hframing
    refine ⟨⟨chunks, hdrained.frames, hdrained.packets, hdrained.thrown, hdrained.sendable,
      hdrained.fields⟩, rfl, fun hleft => ?_⟩
    simpa using hleft

theorem SendBuffer.makeRoom_emits
    (hframing : Framing o b.packets) (hsize : b.currentSize = queuedSize b.packets)
    (data : Bytes) (answers : List Bool) :
    (∃ chunks, Emits o b (b.makeRoom o data answers).1 chunks) ∧
      (b.makeRoom o data answers).1.currentSize =
        queuedSize (b.makeRoom o data answers).1.packets := by
  unfold SendBuffer.makeRoom
  split
  case isTrue =>
    obtain ⟨hchunks, hcount, _⟩ := SendBuffer.flush_emits hframing hsize answers
    exact ⟨hchunks, hcount⟩
  case isFalse => exact ⟨⟨[], .none rfl rfl rfl⟩, hsize⟩

theorem SendBuffer.enqueue_emits {data : Bytes}
    (hframing : Framing o (b.packets ++ [data])) (hsize : b.currentSize = queuedSize b.packets)
    (answers : List Bool) :
    (∃ chunks, Emits o { b with packets := b.packets ++ [data] } (b.enqueue o data answers).1
        chunks) ∧
      (b.enqueue o data answers).1.currentSize =
        queuedSize (b.enqueue o data answers).1.packets ∧
      ((b.enqueue o data answers).1.packets ≠ [] →
        (b.enqueue o data answers).1.timer = true) := by
  obtain ⟨⟨early, hearly⟩, hcount⟩ := SendBuffer.makeRoom_emits
    (hframing.sublist (sublist_append_left _ _)) hsize data answers
  unfold SendBuffer.enqueue
  rcases hcall : b.makeRoom o data answers with ⟨roomy, left⟩
  rw [hcall] at hearly hcount
  dsimp only at hearly hcount ⊢
  have hfilled : Emits o { b with packets := b.packets ++ [data] }
      { roomy with
        packets := roomy.packets ++ [data]
        currentSize := roomy.currentSize + entrySize data } early :=
    ⟨hearly.frames, by simp [hearly.packets], hearly.thrown, hearly.sendable, hearly.fields⟩
  have hfilledSize : roomy.currentSize + entrySize data = queuedSize (roomy.packets ++ [data]) := by
    simp [hcount, queuedSize, Nat.add_assoc]
  split
  case isTrue =>
    obtain ⟨⟨late, hlate⟩, hafter, htimer⟩ := SendBuffer.flush_emits
      (hframing.sublist hfilled.suffix.sublist) hfilledSize left
    exact ⟨⟨_, hfilled.trans hlate⟩, hafter, htimer⟩
  case isFalse =>
    exact ⟨⟨early, hfilled.frames, hfilled.packets, hfilled.thrown, hfilled.sendable,
      hfilled.fields⟩, hfilledSize, fun _ => rfl⟩

section Moves

variable {o : BufferOptions} (hsize : o.maxFrameSize ≤ 65535)
include hsize

variable {b : SendBuffer}

theorem SendBuffer.flush_spec (hb : b.Ok) (answers : List Bool) :
    (b.flush o answers).1.stream = b.stream ∧ (b.flush o answers).1.Ok := by
  obtain ⟨⟨chunks, hemits⟩, hcount, _⟩ :=
    SendBuffer.flush_emits (framing_of_size hsize b.packets) hb.size answers
  exact ⟨hemits.stream hb.plain, hcount, hemits.plain hb.plain, hemits.thrown.trans hb.calm⟩

theorem SendBuffer.enqueue_spec (hb : b.Ok) {data : Bytes} (hdata : Plain data)
    (answers : List Bool) :
    (b.enqueue o data answers).1.stream = b.stream ++ [data] ∧
      (b.enqueue o data answers).1.Ok := by
  obtain ⟨⟨chunks, hemits⟩, hcount, _⟩ :=
    SendBuffer.enqueue_emits (framing_of_size hsize (b.packets ++ [data])) hb.size answers
  have hplain : ∀ packet ∈ b.packets ++ [data], Plain packet := by
    intro packet hpacket
    rcases mem_append.mp hpacket with hold | hnew
    · exact hb.plain packet hold
    · rw [mem_singleton.mp hnew]
      exact hdata
  refine ⟨(hemits.stream hplain).trans ?_, hcount, hemits.plain hplain,
    hemits.thrown.trans hb.calm⟩
  simp [SendBuffer.stream]

theorem SendBuffer.resume_spec (hb : b.Ok) (answers : List Bool) :
    (b.resume o answers).1.stream = b.stream ∧ (b.resume o answers).1.Ok := by
  unfold SendBuffer.resume
  split
  · exact ⟨rfl, hb⟩
  · exact SendBuffer.flush_spec hsize hb answers

theorem SendBuffer.fire_spec (hb : b.Ok) (answers : List Bool) :
    (b.fire o answers).stream = b.stream ∧ (b.fire o answers).Ok := by
  unfold SendBuffer.fire
  split
  · exact SendBuffer.flush_spec hsize (b := { b with timer := false })
      ⟨hb.size, hb.plain, hb.calm⟩ answers
  · exact ⟨rfl, hb⟩

end Moves

end Meshpn.Transport

import Meshpn.Transport.SendBuffer

/-!
Whole runs of the send buffer: packets pushed, flushes asked for, the timer
firing and a channel that is ready or not each time it is asked. Nothing is
lost, doubled or reordered between `push` and the receiver's `unframe`, frames
of several packets keep to the maximum size, and a queue that is not empty has
a timer to empty it.

The count of packets and each length have two bytes in a frame. `_sendFrame`
throws on a number they do not hold, so the runs are those where none comes up:
with frames of at most 65535 bytes, as every transport has them, that is every
run; with larger ones the packets keep to the documented 65535 bytes, and the
queue or the frame to fewer than 65536 of them.
-/

namespace Meshpn.Transport

open Meshpn.Lib

inductive BufferStep where
  | push (data : Bytes) (answers : List Bool)
  | flush (answers : List Bool)
  | resume (answers : List Bool)
  | timer (answers : List Bool)

/-- One step, with the packets accepted so far. -/
def BufferStep.apply (o : BufferOptions) (b : SendBuffer) (accepted : List Bytes) :
    BufferStep → SendBuffer × List Bytes
  | .push data answers =>
    if (b.push o data answers).1 then ((b.push o data answers).2.1, accepted ++ [data])
    else ((b.push o data answers).2.1, accepted)
  | .flush answers => ((b.flush o answers).1, accepted)
  | .resume answers => ((b.resume o answers).1, accepted)
  | .timer answers => (b.fire o answers, accepted)

def runBuffer (o : BufferOptions) :
    SendBuffer → List Bytes → List BufferStep → SendBuffer × List Bytes
  | b, accepted, [] => (b, accepted)
  | b, accepted, step :: steps =>
    runBuffer o (step.apply o b accepted).1 (step.apply o b accepted).2 steps

def LengthFits (o : BufferOptions) (packet : Bytes) : Prop :=
  o.maxFrameSize ≤ 65535 ∨ packet.length ≤ 65535

def CountFits (o : BufferOptions) : Prop :=
  o.maxQueuePackets ≤ 65535 ∨ o.maxFrameSize < 131075

theorem plain_of_head {packet : Bytes} (hhead : packet.head? ≠ some frameMarker) :
    Plain packet := by
  unfold Plain unframe
  split
  case h_1 marker high low rest =>
    rw [if_neg fun h => hhead (by simp [h])]
  case h_2 => rfl

theorem two_mul_length_le_queuedSize (packets : List Bytes) :
    headerSize + 2 * packets.length ≤ queuedSize packets := by
  induction packets with
  | nil => simp [queuedSize]
  | cons packet rest ih =>
    simp only [queuedSize, List.length_cons, List.map_cons, List.sum_cons, entrySize] at ih ⊢
    omega

theorem framing_of_limits {o : BufferOptions} {packets : List Bytes}
    (hcount : CountFits o) (hqueue : packets.length ≤ o.maxQueuePackets)
    (hlengths : ∀ packet ∈ packets, LengthFits o packet) : Framing o packets := by
  by_cases hsmall : o.maxFrameSize ≤ 65535
  case pos => exact framing_of_size hsmall packets
  intro chunk hchunk hsend
  rcases hsend with hone | hfits
  · exact Or.inl hone
  right
  have hshort := hchunk.length_le
  have hheader := two_mul_length_le_queuedSize chunk
  have hchunkCount : chunk.length ≤ 65535 := by
    rcases hcount with hcount | hcount <;> simp only [headerSize] at hheader <;> omega
  simp only [framable, Bool.and_eq_true, decide_eq_true_eq, List.all_eq_true]
  refine ⟨by omega, fun packet hpacket => ?_⟩
  rcases hlengths packet (hchunk.subset hpacket) with hframe | hlength
  · exact absurd hframe hsmall
  · omega

theorem encodeFrame_length (packets : List Bytes) :
    (encodeFrame packets).length = queuedSize packets := by
  have hentries : (packets.flatMap entry).length = (packets.map entrySize).sum := by
    simp only [List.length_flatMap]
    congr 1
    refine List.map_congr_left fun packet _ => ?_
    simp [entry, entrySize, Bytes.ofUInt16]
    omega
  simp only [encodeFrame, queuedSize, headerSize, List.length_cons, List.length_append, hentries,
    Bytes.ofUInt16, List.length_nil]

theorem frameOf_length_le {o : BufferOptions} {chunk : List Bytes} (hsend : Sendable o chunk)
    (hmany : 1 < chunk.length) : (frameOf chunk).length ≤ o.maxFrameSize := by
  have hframe : frameOf chunk = encodeFrame chunk := by
    unfold frameOf
    split
    case h_1 packet => simp at hmany
    case h_2 => rfl
  rw [hframe, encodeFrame_length]
  rcases hsend with hone | hfits
  · omega
  · exact hfits

/-- The state of a buffer between two steps, for the packets it has accepted. -/
structure Coalesced (o : BufferOptions) (b : SendBuffer) (accepted : List Bytes) : Prop where
  stream : b.stream = accepted
  plain : ∀ packet ∈ b.packets, Plain packet
  lengths : ∀ packet ∈ b.packets, LengthFits o packet
  room : b.packets.length ≤ o.maxQueuePackets
  size : b.currentSize = queuedSize b.packets
  pending : b.packets ≠ [] → b.timer = true
  calm : b.thrown = false
  frames : ∀ frame ∈ b.frames, ∃ packets, unframe frame = some packets ∧
    (1 < packets.length → frame.length ≤ o.maxFrameSize)

theorem coalesced_empty (o : BufferOptions) : Coalesced o .empty [] where
  stream := rfl
  plain := by simp [SendBuffer.empty]
  lengths := by simp [SendBuffer.empty]
  room := by simp [SendBuffer.empty]
  size := rfl
  pending := by simp [SendBuffer.empty]
  calm := rfl
  frames := by simp [SendBuffer.empty]

section Steps

variable {o : BufferOptions} {b : SendBuffer} {accepted : List Bytes}

/-- Taking in some packets and then emitting chunks from the front keeps the
state, provided that what is left is counted and has a timer. -/
theorem Coalesced.emits (h : Coalesced o b accepted) {taken : List Bytes} {after : SendBuffer}
    {chunks : List (List Bytes)} (hplain : ∀ packet ∈ taken, Plain packet)
    (hlengths : ∀ packet ∈ taken, LengthFits o packet)
    (hroom : (b.packets ++ taken).length ≤ o.maxQueuePackets)
    (hemits : Emits o { b with packets := b.packets ++ taken } after chunks)
    (hsize : after.currentSize = queuedSize after.packets)
    (hpending : after.packets ≠ [] → after.timer = true) :
    Coalesced o after (accepted ++ taken) := by
  have hall : ∀ packet ∈ b.packets ++ taken, Plain packet := fun packet hpacket =>
    (List.mem_append.mp hpacket).elim (h.plain packet) (hplain packet)
  have hfit : ∀ packet ∈ b.packets ++ taken, LengthFits o packet := fun packet hpacket =>
    (List.mem_append.mp hpacket).elim (h.lengths packet) (hlengths packet)
  refine
    { stream := (hemits.stream hall).trans ?_
      plain := hemits.plain hall
      lengths := fun packet hpacket => hfit packet (hemits.suffix.mem hpacket)
      room := hemits.suffix.length_le.trans hroom
      size := hsize
      pending := hpending
      calm := hemits.thrown.trans h.calm
      frames := ?_ }
  · rw [← h.stream]
    simp [SendBuffer.stream]
  · intro frame hframe
    rw [hemits.frames] at hframe
    rcases List.mem_append.mp hframe with hold | hnew
    · exact h.frames frame hold
    obtain ⟨chunk, hchunk, rfl⟩ := List.mem_map.mp hnew
    refine ⟨chunk, ?_, frameOf_length_le (hemits.sendable chunk hchunk)⟩
    exact unframe_frameOf (hemits.fields chunk hchunk) (hemits.chunk_plain hall hchunk)

variable (hcount : CountFits o)
include hcount

theorem Coalesced.flush_with (h : Coalesced o b accepted) (timer : Bool) (answers : List Bool) :
    Coalesced o ({ b with timer }.flush o answers).1 accepted := by
  obtain ⟨⟨chunks, hemits⟩, hsize, hpending⟩ := SendBuffer.flush_emits
    (b := { b with timer }) (framing_of_limits hcount h.room h.lengths) h.size answers
  have hnone : Emits o { b with packets := b.packets ++ [] }
      ({ b with timer }.flush o answers).1 chunks :=
    ⟨hemits.frames, by simpa using hemits.packets, hemits.thrown, hemits.sendable, hemits.fields⟩
  rw [← List.append_nil accepted]
  exact h.emits (by simp) (by simp) (by simpa using h.room) hnone hsize hpending

theorem Coalesced.flush (h : Coalesced o b accepted) (answers : List Bool) :
    Coalesced o (b.flush o answers).1 accepted := h.flush_with hcount b.timer answers

theorem Coalesced.fire (h : Coalesced o b accepted) (answers : List Bool) :
    Coalesced o (b.fire o answers) accepted := by
  unfold SendBuffer.fire
  split
  case isTrue => exact h.flush_with hcount false answers
  case isFalse => exact h

theorem Coalesced.enqueue (h : Coalesced o b accepted) (hfull : b.full o = false) {data : Bytes}
    (hplain : Plain data) (hlength : LengthFits o data) (answers : List Bool) :
    Coalesced o (b.enqueue o data answers).1 (accepted ++ [data]) := by
  have hroom : (b.packets ++ [data]).length ≤ o.maxQueuePackets := by
    simp only [SendBuffer.full, ge_iff_le, decide_eq_false_iff_not, Nat.not_le] at hfull
    simpa using Nat.succ_le_of_lt hfull
  have hlengths : ∀ packet ∈ b.packets ++ [data], LengthFits o packet := fun packet hpacket =>
    (List.mem_append.mp hpacket).elim (h.lengths packet)
      fun hnew => (List.mem_singleton.mp hnew) ▸ hlength
  obtain ⟨⟨chunks, hemits⟩, hsize, hpending⟩ :=
    SendBuffer.enqueue_emits (framing_of_limits hcount hroom hlengths) h.size answers
  exact h.emits (by simpa using hplain) (by simpa using hlength) hroom hemits hsize hpending

def BufferStep.Admissible (o : BufferOptions) : BufferStep → Prop
  | .push data _ => data.head? ≠ some frameMarker ∧ LengthFits o data
  | _ => True

theorem Coalesced.apply (h : Coalesced o b accepted) (step : BufferStep)
    (hstep : step.Admissible o) :
    Coalesced o (step.apply o b accepted).1 (step.apply o b accepted).2 := by
  cases step with
  | push data answers =>
    unfold BufferStep.apply SendBuffer.push
    by_cases hfull : b.full o = true
    case pos => simpa [hfull] using h
    simpa [hfull] using
      h.enqueue hcount (by simpa using hfull) (plain_of_head hstep.1) hstep.2 answers
  | flush answers => exact h.flush hcount answers
  | resume answers =>
    unfold BufferStep.apply SendBuffer.resume
    by_cases hempty : b.packets.isEmpty = true
    case pos => simpa [hempty] using h
    case neg => simpa [hempty] using h.flush hcount answers
  | timer answers => exact h.fire hcount answers

theorem Coalesced.run (h : Coalesced o b accepted) (steps : List BufferStep)
    (hsteps : ∀ step ∈ steps, step.Admissible o) :
    Coalesced o (runBuffer o b accepted steps).1 (runBuffer o b accepted steps).2 := by
  induction steps generalizing b accepted with
  | nil => exact h
  | cons step steps ih =>
    exact ih (h.apply hcount step (hsteps step (by simp)))
      fun next hnext => hsteps next (by simp [hnext])

end Steps

def sampleOptions : BufferOptions := ⟨15000, 3⟩

/-- Two packets wait for the timer and go as one frame; a third finds the
channel not ready. -/
def sampleSteps : List BufferStep :=
  [.push [1, 10] [], .push [2, 20, 30] [], .timer [true], .push [1, 40] [], .flush [false]]

end Meshpn.Transport

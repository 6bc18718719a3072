import Meshpn.Bridge.StreamFramer

/-!
What the writer hands to the endpoint, in whatever chunks it comes out at the
other end, is read back as the packets that were pushed. On the writer's side
the bytes written and the batch that waits are together the frames of all
packets; on the reader's side the bytes received are the frames of the packets
handed over and then the chunks that are held.
-/

namespace Meshpn.Bridge

open Meshpn.Lib List

def frames (packets : List Bytes) : Bytes := packets.flatMap encodeCleanVpnFramedPkt

@[simp] theorem frames_nil : frames [] = [] := rfl

@[simp] theorem frames_cons (pkt : Bytes) (rest : List Bytes) :
    frames (pkt :: rest) = encodeCleanVpnFramedPkt pkt ++ frames rest := by
  simp [frames]

@[simp] theorem frames_append (a b : List Bytes) : frames (a ++ b) = frames a ++ frames b := by
  simp [frames]

@[simp] theorem encodeCleanVpnFramedPkt_length (pkt : Bytes) :
    (encodeCleanVpnFramedPkt pkt).length = 4 + pkt.length := by
  simp [encodeCleanVpnFramedPkt]

def Framable (pkt : Bytes) : Prop := 1 ≤ pkt.length ∧ pkt.length ≤ maxPkt

namespace StreamFramer

def held (framer : StreamFramer) : Bytes := framer.chunks.flatten

def Exact (framer : StreamFramer) : Prop := framer.len = framer.held.length

theorem copyFront_eq (need : Nat) (chunks : List Bytes) :
    copyFront need chunks = chunks.flatten.take need := by
  induction chunks generalizing need with
  | nil => simp [copyFront]
  | cons chunk rest ih =>
    unfold copyFront
    split
    case isTrue hzero => simp [hzero]
    split
    case isTrue hle => rw [flatten_cons, take_append_of_le_length hle]
    rename_i hgt
    rw [ih, flatten_cons, take_append,
      take_of_length_le (l := chunk) (by omega)]

theorem readUInt32_take (bytes : Bytes) :
    Bytes.readUInt32 (bytes.take 4) = Bytes.readUInt32 bytes := by
  match bytes with
  | [] | [_] | [_, _] | [_, _, _] | _ :: _ :: _ :: _ :: _ => rfl

theorem readUInt32_append {front : Bytes} (hfront : 4 ≤ front.length) (back : Bytes) :
    Bytes.readUInt32 (front ++ back) = Bytes.readUInt32 front := by
  rw [← readUInt32_take (front ++ back), take_append_of_le_length hfront, readUInt32_take]

variable {framer : StreamFramer} {packets : List Bytes} {future : Bytes}

theorem peekUInt32BE_eq (hexact : framer.Exact) :
    framer.peekUInt32BE =
      if framer.held.length < 4 then none else Bytes.readUInt32 framer.held := by
  unfold peekUInt32BE
  rw [hexact]
  split
  case isTrue => rfl
  rename_i hlong
  unfold held at hlong ⊢
  split
  case h_1 hnone => simp [hnone] at hlong
  rename_i first rest hchunks
  rw [hchunks] at hlong ⊢
  split
  case isTrue hfirst => rw [flatten_cons, readUInt32_append hfirst]
  have hcopied : 4 ≤ (copyFront 4 (first :: rest)).length := by
    rw [copyFront_eq, length_take]
    omega
  rw [if_pos hcopied, copyFront_eq, readUInt32_take]

theorem consume_eq {n : Nat} {chunks : List Bytes} {len : Nat}
    (henough : n ≤ chunks.flatten.length) (hlen : len = chunks.flatten.length) :
    ∃ next, consume n chunks len = some (chunks.flatten.take n, next) ∧ next.Exact ∧
      next.held = chunks.flatten.drop n := by
  induction chunks generalizing n len with
  | nil =>
    obtain rfl : n = 0 := by simpa using henough
    exact ⟨⟨[], len⟩, by simp [consume], by simpa [Exact, held] using hlen, by simp [held]⟩
  | cons first rest ih =>
    rw [flatten_cons, length_append] at henough hlen
    cases n with
    | zero =>
      exact ⟨⟨first :: rest, len⟩, by simp [consume], by simpa [Exact, held] using hlen,
        by simp [held]⟩
    | succ n =>
      unfold consume
      split
      case isTrue hwhole =>
        obtain ⟨next, htaken, hexact, hheld⟩ :=
          @ih (n + 1 - first.length) (len - first.length) (by omega) (by omega)
        refine ⟨next, ?_, hexact, ?_⟩
        · rw [htaken, flatten_cons, take_append, take_of_length_le hwhole]
          rfl
        · rw [hheld, flatten_cons, drop_append, drop_eq_nil_of_le hwhole]
          rfl
      case isFalse hpart =>
        have hle : n + 1 ≤ first.length := by omega
        refine ⟨_, by rw [flatten_cons, take_append_of_le_length hle], ?_, ?_⟩
        · simp only [Exact, held, flatten_cons, length_append, length_drop]
          omega
        · rw [flatten_cons, drop_append_of_le_length hle]
          rfl

theorem mergeChunksIfNeeded_exact (hexact : framer.Exact) :
    framer.mergeChunksIfNeeded.Exact ∧ framer.mergeChunksIfNeeded.held = framer.held := by
  unfold mergeChunksIfNeeded
  split
  · exact ⟨hexact, rfl⟩
  have hjoined : (framer.chunks.flatten ++ List.replicate framer.len 0).take framer.len =
      framer.held := by
    rw [hexact]
    exact take_left
  rw [hjoined]
  exact ⟨by simpa [Exact, held] using hexact, by simp [held]⟩

/-- What the framer sees in the middle of a stream: the packets still to come, and the bytes
of them that are still under way. -/
structure Reads (framer : StreamFramer) (packets : List Bytes) (future : Bytes) : Prop where
  exact : framer.Exact
  stream : framer.held ++ future = frames packets
  framable : ∀ pkt ∈ packets, Framable pkt

theorem Reads.header {pkt : Bytes} {rest : List Bytes}
    (hreads : framer.Reads (pkt :: rest) future) (hlong : 4 ≤ framer.held.length) :
    Bytes.readUInt32 framer.held = some pkt.length := by
  have hpkt := hreads.framable pkt mem_cons_self
  rw [← readUInt32_append hlong future, hreads.stream, frames_cons, encodeCleanVpnFramedPkt,
    append_assoc]
  refine Bytes.readUInt32_ofUInt32 ?_ _
  have hle : pkt.length ≤ 65535 := hpkt.2
  omega

theorem Reads.consume {pkt : Bytes} {rest : List Bytes}
    (hreads : framer.Reads (pkt :: rest) future) (hlong : 4 + pkt.length ≤ framer.held.length) :
    ∃ next, consume (4 + pkt.length) framer.chunks framer.len =
        some (encodeCleanVpnFramedPkt pkt, next) ∧ next.Reads rest future ∧
      framer.held = encodeCleanVpnFramedPkt pkt ++ next.held := by
  obtain ⟨next, hconsume, hexact, hheld⟩ := consume_eq hlong hreads.exact
  have hsplit : framer.held.take (4 + pkt.length) = encodeCleanVpnFramedPkt pkt := by
    have htake := congrArg (List.take (4 + pkt.length)) hreads.stream
    rw [take_append_of_le_length hlong, frames_cons] at htake
    rw [htake]
    exact take_left' (encodeCleanVpnFramedPkt_length pkt)
  have hrest : framer.held = encodeCleanVpnFramedPkt pkt ++ next.held := by
    rw [← hsplit, hheld]
    exact (take_append_drop _ _).symm
  refine ⟨next, ?_, ⟨hexact, ?_, ?_⟩, hrest⟩
  · rw [hconsume]
    exact congrArg (fun frame => some (frame, next)) hsplit
  · have hstream := hreads.stream
    rw [hrest, frames_cons, append_assoc] at hstream
    exact append_cancel_left hstream
  · exact fun other hother => hreads.framable other (mem_cons_of_mem _ hother)

/-- What a push, or a run of pushes, makes of a stream: it hands over the first packets, holds
the rest that is here, and has handed over everything once nothing is under way. -/
structure Follows (pushed : Pushed) (before : Bytes) (packets : List Bytes) (future : Bytes)
    (rest : List Bytes) : Prop where
  packets : packets = pushed.packets ++ rest
  fault : pushed.fault = none
  reads : pushed.framer.Reads rest future
  drained : future = [] → rest = []
  -- at every callback, what was here is what was handed over and what is still held
  moments : ∀ earlier pkt framer later, pushed.delivered = earlier ++ (pkt, framer) :: later →
    framer.Exact ∧ before = frames (earlier.map Prod.fst ++ [pkt]) ++ framer.held

theorem frames_ne_nil (hshort : (frames packets).length < 4) :
    packets = [] := by
  cases packets with
  | nil => rfl
  | cons pkt rest =>
    rw [frames_cons, length_append, encodeCleanVpnFramedPkt_length] at hshort
    omega

theorem Reads.wait
    (hreads : framer.Reads packets future) (hdrained : future = [] → packets = []) :
    Follows ⟨framer.mergeChunksIfNeeded, [], none⟩ framer.held packets future packets := by
  obtain ⟨hexact, hheld⟩ := mergeChunksIfNeeded_exact hreads.exact
  refine ⟨rfl, rfl, ⟨hexact, by rw [hheld]; exact hreads.stream, hreads.framable⟩, hdrained, ?_⟩
  intro earlier pkt framer later h
  simp at h

theorem encodeCleanVpnFramedPkt_drop (pkt : Bytes) :
    (encodeCleanVpnFramedPkt pkt).drop 4 = pkt := by
  simp [encodeCleanVpnFramedPkt, Bytes.ofUInt32, Bytes.ofUInt16]

theorem Follows.cons {more : Pushed} {next : StreamFramer} {before pkt : Bytes}
    {packets : List Bytes} {future : Bytes} {rest : List Bytes}
    (hmore : Follows more next.held packets future rest) (hexact : next.Exact)
    (hheld : before = encodeCleanVpnFramedPkt pkt ++ next.held) :
    Follows { more with delivered := (pkt, next) :: more.delivered } before (pkt :: packets) future
      rest := by
  refine ⟨?_, hmore.fault, hmore.reads, hmore.drained, ?_⟩
  · exact congrArg (pkt :: ·) hmore.packets
  intro earlier other moment later hsplit
  cases earlier with
  | nil =>
    obtain ⟨hfirst, -⟩ := List.cons.inj hsplit
    cases hfirst
    exact ⟨hexact, by simpa using hheld⟩
  | cons first earlier =>
    obtain ⟨rfl, htail⟩ := List.cons.inj hsplit
    obtain ⟨hlater, hsame⟩ := hmore.moments earlier other moment later htail
    exact ⟨hlater, by rw [hheld, hsame]; simp⟩

theorem deliver_follows {fuel : Nat} (hreads : framer.Reads packets future) (hfuel : framer.held.length < fuel) :
    ∃ rest, Follows (deliver fuel framer) framer.held packets future rest := by
  induction fuel generalizing framer packets with
  | zero => omega
  | succ fuel ih =>
    unfold deliver
    rw [peekUInt32BE_eq hreads.exact]
    by_cases hshort : framer.held.length < 4
    · rw [if_pos hshort]
      refine ⟨packets, hreads.wait ?_⟩
      rintro rfl
      refine frames_ne_nil ?_
      rw [← hreads.stream, append_nil]
      exact hshort
    · rw [if_neg hshort]
      cases packets with
      | nil =>
        have hnone := hreads.stream
        simp only [frames_nil, append_eq_nil_iff] at hnone
        simp [hnone.1] at hshort
      | cons pkt rest =>
        obtain ⟨hpositive, hmax⟩ := hreads.framable pkt mem_cons_self
        rw [hreads.header (by omega)]
        dsimp only
        rw [if_neg (by omega), hreads.exact]
        split
        case isTrue hpart =>
          refine ⟨pkt :: rest, hreads.wait ?_⟩
          rintro rfl
          have hlength := congrArg List.length hreads.stream
          rw [append_nil, frames_cons, length_append,
            encodeCleanVpnFramedPkt_length] at hlength
          omega
        case isFalse hwhole =>
          obtain ⟨next, hconsume, hnext, hheld⟩ := hreads.consume (by omega)
          rw [← hreads.exact, hconsume]
          dsimp only
          have hlength := congrArg List.length hheld
          rw [length_append, encodeCleanVpnFramedPkt_length] at hlength
          obtain ⟨left, hmore⟩ := ih hnext (by omega)
          refine ⟨left, ?_⟩
          rw [encodeCleanVpnFramedPkt_drop]
          exact hmore.cons hnext.exact hheld

theorem add_reads {chunk future : Bytes}
    (hreads : framer.Reads packets (chunk ++ future)) :
    (framer.add chunk).Reads packets future ∧ (framer.add chunk).held = framer.held ++ chunk := by
  unfold add
  split
  case isTrue hempty =>
    subst hempty
    exact ⟨hreads, by simp⟩
  case isFalse =>
    have hheld : held ⟨framer.chunks ++ [chunk], framer.len + chunk.length⟩ =
        framer.held ++ chunk := by simp [held]
    refine ⟨⟨?_, ?_, hreads.framable⟩, hheld⟩
    · rw [Exact, hheld, length_append, hreads.exact]
    · rw [hheld, append_assoc]
      exact hreads.stream

theorem push_follows {chunk future : Bytes}
    (hreads : framer.Reads packets (chunk ++ future)) :
    ∃ rest, Follows (framer.push chunk) (framer.held ++ chunk) packets future rest := by
  obtain ⟨hadded, hheld⟩ := add_reads hreads
  rw [← hheld, push]
  exact deliver_follows hadded (by rw [hadded.exact]; omega)

theorem pushAll_reads {chunks : List Bytes} (hreads : framer.Reads packets (chunks.flatten ++ future))
    (hdrained : chunks.flatten ++ future = [] → packets = []) :
    ∃ rest, packets = (framer.pushAll chunks).packets ++ rest ∧
      (framer.pushAll chunks).fault = none ∧ (framer.pushAll chunks).framer.Reads rest future ∧
      (future = [] → rest = []) := by
  induction chunks generalizing framer packets with
  | nil => exact ⟨packets, rfl, rfl, hreads, hdrained⟩
  | cons chunk chunks ih =>
    rw [flatten_cons, append_assoc] at hreads
    obtain ⟨between, hpushed⟩ := push_follows hreads
    obtain ⟨rest, hpackets, hfault, hrest, hdone⟩ := ih hpushed.reads hpushed.drained
    refine ⟨rest, ?_, ?_⟩
    · rw [hpushed.packets, hpackets]
      simp [pushAll, hpushed.fault, Pushed.packets]
    · rw [pushAll, hpushed.fault]
      exact ⟨hfault, hrest, hdone⟩

end StreamFramer

def pushed : List WriterEvent → List Bytes
  | [] => []
  | .push pkt :: rest => pkt :: pushed rest
  | .immediate :: rest | .timer :: rest => pushed rest

/-- The packets `sent` are written, the packets `waiting` are in the batch, and a batch that
is not empty has a flush scheduled; without batches nothing waits. -/
structure Writer.Sound (config : WriterConfig) (writer : Writer) (sent waiting : List Bytes) :
    Prop where
  written : writer.written.flatten = frames sent
  batch : writer.batch = waiting.map encodeCleanVpnFramedPkt
  batchLen : writer.batchLen = (frames waiting).length
  deferred : writer.flushDeferred = true → writer.immediates ≠ 0
  scheduled : waiting ≠ [] → writer.flushTimer = true ∨ writer.flushDeferred = true
  direct : config.maxBatch = 0 → waiting = []

namespace Writer

variable {config : WriterConfig} {writer : Writer} {sent waiting : List Bytes}

theorem init_sound : init.Sound config [] [] :=
  ⟨rfl, rfl, rfl, by simp [init], by simp, fun _ => rfl⟩

theorem flatten_encoded (waiting : List Bytes) :
    (waiting.map encodeCleanVpnFramedPkt).flatten = frames waiting := by
  simp [frames, flatMap_def]

theorem flush_sound (hwritten : writer.written.flatten = frames sent)
    (hbatch : writer.batch = waiting.map encodeCleanVpnFramedPkt)
    (hlen : writer.batchLen = (frames waiting).length) :
    writer.flush.Sound config (sent ++ waiting) [] := by
  unfold flush
  dsimp only
  split
  case isTrue hzero =>
    obtain rfl : waiting = [] := StreamFramer.frames_ne_nil (by omega)
    exact ⟨by simpa using hwritten, by simpa using hbatch, by simpa using hlen, by simp, by simp,
      fun _ => rfl⟩
  case isFalse =>
    refine ⟨?_, rfl, rfl, by simp, by simp, fun _ => rfl⟩
    rw [flatten_append, hwritten, frames_append]
    congr 1
    rw [flatten_singleton, ← flatten_encoded, ← hbatch]
    split
    case h_1 only honly => rw [honly, flatten_singleton]
    rw [concat, hlen, ← flatten_encoded, ← hbatch]
    exact take_left

theorem push_sound (hsound : writer.Sound config sent waiting) (pkt : Bytes) :
    ∃ sent' waiting', sent' ++ waiting' = sent ++ waiting ++ [pkt] ∧
      (writer.push config pkt).Sound config sent' waiting' := by
  unfold push
  split
  case isTrue hdirect =>
    obtain rfl := hsound.direct hdirect
    refine ⟨sent ++ [pkt], [], by simp, ?_, hsound.batch, hsound.batchLen, hsound.deferred,
      hsound.scheduled, fun _ => rfl⟩
    simp [hsound.written]
  case isFalse hbatched =>
    have hgrown : writer.batch ++ [encodeCleanVpnFramedPkt pkt] =
        (waiting ++ [pkt]).map encodeCleanVpnFramedPkt := by
      rw [map_append, hsound.batch]
      rfl
    have hlength : writer.batchLen + (encodeCleanVpnFramedPkt pkt).length =
        (frames (waiting ++ [pkt])).length := by
      simp [hsound.batchLen]
    dsimp only
    split
    · exact ⟨sent ++ (waiting ++ [pkt]), [], by simp, flush_sound hsound.written hgrown hlength⟩
    refine ⟨sent, waiting ++ [pkt], by simp, ?_⟩
    unfold scheduleFlush
    dsimp only
    split
    case isTrue hzero =>
      rw [encodeCleanVpnFramedPkt_length] at hzero
      omega
    split
    · split
      case isTrue hdeferred =>
        exact ⟨hsound.written, hgrown, hlength, hsound.deferred, fun _ => .inr hdeferred,
          fun h => absurd h hbatched⟩
      case isFalse =>
        exact ⟨hsound.written, hgrown, hlength, fun _ => Nat.succ_ne_zero _,
          fun _ => .inr rfl, fun h => absurd h hbatched⟩
    · exact ⟨hsound.written, hgrown, hlength, hsound.deferred, fun _ => .inl rfl,
        fun h => absurd h hbatched⟩

theorem step_sound (hsound : writer.Sound config sent waiting) (event : WriterEvent) :
    ∃ sent' waiting', sent' ++ waiting' = sent ++ waiting ++ pushed [event] ∧
      (writer.step config event).Sound config sent' waiting' := by
  unfold step
  cases event with
  | push pkt => exact push_sound hsound pkt
  | immediate =>
    dsimp only
    split
    · exact ⟨sent, waiting, by simp [pushed], hsound⟩
    · exact ⟨sent ++ waiting, [], by simp [pushed],
        flush_sound hsound.written hsound.batch hsound.batchLen⟩
  | timer =>
    dsimp only
    split
    · exact ⟨sent ++ waiting, [], by simp [pushed],
        flush_sound hsound.written hsound.batch hsound.batchLen⟩
    · exact ⟨sent, waiting, by simp [pushed], hsound⟩

theorem run_sound (hsound : writer.Sound config sent waiting) (events : List WriterEvent) :
    ∃ sent' waiting', sent' ++ waiting' = sent ++ waiting ++ pushed events ∧
      (writer.run config events).Sound config sent' waiting' := by
  induction events generalizing writer sent waiting with
  | nil => exact ⟨sent, waiting, by simp [pushed], hsound⟩
  | cons event rest ih =>
    obtain ⟨sent₁, waiting₁, hsplit₁, hsound₁⟩ := step_sound hsound event
    obtain ⟨sent₂, waiting₂, hsplit₂, hsound₂⟩ := ih hsound₁
    refine ⟨sent₂, waiting₂, ?_, hsound₂⟩
    rw [hsplit₂, hsplit₁]
    cases event <;> simp [pushed]

end Writer

/-- The recorded length is the total length of the chunks, and the chunks are what was
received and not yet handed over. -/
def StreamFramer.Holds (framer : StreamFramer) (received : Bytes) (emitted : List Bytes) : Prop :=
  framer.len = (framer.chunks.map List.length).sum ∧
    received = frames emitted ++ framer.chunks.flatten

theorem StreamFramer.Exact.holds {framer : StreamFramer} (hexact : framer.Exact) {received : Bytes}
    {emitted : List Bytes} (hreceived : received = frames emitted ++ framer.held) :
    framer.Holds received emitted :=
  ⟨by rw [hexact, held, length_flatten], hreceived⟩

theorem StreamFramer.init_pushAll {packets before : List Bytes} {future : Bytes}
    (hframable : ∀ pkt ∈ packets, Framable pkt)
    (hstream : before.flatten ++ future = frames packets) :
    ∃ rest, packets = (init.pushAll before).packets ++ rest ∧
      (init.pushAll before).fault = none ∧ (init.pushAll before).framer.Reads rest future ∧
      (future = [] → rest = []) ∧
      before.flatten =
        frames (init.pushAll before).packets ++ (init.pushAll before).framer.held := by
  have hreads : init.Reads packets (before.flatten ++ future) := ⟨rfl, hstream, hframable⟩
  have hdrained : before.flatten ++ future = [] → packets = [] := by
    intro hnone
    rw [hstream] at hnone
    exact frames_ne_nil (by simp [hnone])
  obtain ⟨rest, hpackets, hfault, hrest, hdone⟩ := pushAll_reads hreads hdrained
  refine ⟨rest, hpackets, hfault, hrest, hdone, ?_⟩
  rw [hpackets, frames_append, ← hrest.stream, ← append_assoc] at hstream
  exact append_cancel_right hstream

/-- Whatever the batching, the flushes and the chunks, the reader hands over the packets that
were written, in order and each once, without an error: all packets but those that still wait
in the batch, and all of them once no flush is scheduled. After every chunk, and at every
callback, the framer holds what was received and not handed over. -/
theorem framing_round_trip (config : WriterConfig) (events : List WriterEvent)
    (writer : Writer) (hwriter : writer = Writer.init.run config events)
    (hframable : ∀ pkt ∈ pushed events, Framable pkt) (chunks : List Bytes)
    (hchunks : chunks.flatten = writer.written.flatten) :
    (∃ waiting, pushed events = (StreamFramer.init.pushAll chunks).packets ++ waiting ∧
      writer.batch = waiting.map encodeCleanVpnFramedPkt) ∧
    (StreamFramer.init.pushAll chunks).fault = none ∧
    (writer.immediates = 0 → writer.flushTimer = false →
      (StreamFramer.init.pushAll chunks).packets = pushed events) ∧
    (∀ before after, chunks = before ++ after →
      (StreamFramer.init.pushAll before).framer.Holds before.flatten
        (StreamFramer.init.pushAll before).packets) ∧
    ∀ before chunk after, chunks = before ++ chunk :: after →
      ∀ earlier pkt framer later,
        ((StreamFramer.init.pushAll before).framer.push chunk).delivered =
          earlier ++ (pkt, framer) :: later →
        framer.Holds (before.flatten ++ chunk)
          ((StreamFramer.init.pushAll before).packets ++ (earlier.map Prod.fst ++ [pkt])) := by
  obtain ⟨sent, waiting, hsplit, hsound⟩ := Writer.run_sound Writer.init_sound events
  rw [List.nil_append, List.nil_append] at hsplit
  rw [← hwriter] at hsound
  have hsent : ∀ pkt ∈ sent, Framable pkt := by
    intro pkt hpkt
    exact hframable pkt (hsplit ▸ List.mem_append_left _ hpkt)
  have hstream : chunks.flatten = frames sent := hchunks.trans hsound.written
  obtain ⟨rest, hpackets, hfault, -, hdone, -⟩ :=
    StreamFramer.init_pushAll hsent ((List.append_nil _).trans hstream)
  obtain rfl := hdone rfl
  rw [List.append_nil] at hpackets
  refine ⟨⟨waiting, by rw [← hpackets, hsplit], hsound.batch⟩, hfault, ?_, ?_, ?_⟩
  · intro himmediates htimer
    have hnone : waiting = [] := by
      by_contra hwaiting
      rcases hsound.scheduled hwaiting with h | h
      · rw [htimer] at h
        cases h
      · exact hsound.deferred h himmediates
    rw [← hpackets, ← hsplit, hnone, List.append_nil]
  · intro before after hcut
    have hprefix : before.flatten ++ after.flatten = frames sent := by
      rw [← hstream, hcut, List.flatten_append]
    obtain ⟨rest, -, -, hreads, -, hheld⟩ := StreamFramer.init_pushAll hsent hprefix
    exact hreads.exact.holds hheld
  · intro before chunk after hcut earlier pkt framer later hdelivered
    have hprefix : before.flatten ++ (chunk ++ after.flatten) = frames sent := by
      rw [← hstream, hcut, List.flatten_append, List.flatten_cons]
    obtain ⟨rest, -, -, hreads, -, hheld⟩ := StreamFramer.init_pushAll hsent hprefix
    obtain ⟨left, hpushed⟩ := StreamFramer.push_follows hreads
    obtain ⟨hexact, hmoment⟩ := hpushed.moments earlier pkt framer later hdelivered
    refine hexact.holds ?_
    rw [hheld, List.append_assoc, hmoment]
    simp only [frames_append, List.append_assoc]

/-- Two packets, a flush between them, and three chunks that cut both length fields. -/
theorem two_packets_round_trip :
    (StreamFramer.init.pushAll [[0, 0], [0, 2, 7, 8, 0, 0, 0], [1, 9]]).packets =
      [[7, 8], [9]] := by
  have hrun : Writer.init.run ⟨8192, 0⟩ [.push [7, 8], .immediate, .push [9], .immediate] =
      ⟨[], 0, false, false, 0, [[0, 0, 0, 2, 7, 8], [0, 0, 0, 1, 9]]⟩ := by decide
  exact (framing_round_trip ⟨8192, 0⟩ [.push [7, 8], .immediate, .push [9], .immediate] _ hrun.symm
    (by simp [pushed, Framable, maxPkt]) [[0, 0], [0, 2, 7, 8, 0, 0, 0], [1, 9]]
    (by decide)).2.2.1 rfl rfl

end Meshpn.Bridge

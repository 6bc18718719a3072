import Meshpn.Device.RxBatchSafety

/-!
The deadline of a frame that is not complete. It runs from the read that brought the
frame's first byte, whatever else that read brought.
-/

namespace Meshpn.Device

open Meshpn.Lib List

/-- What one read returned, no more than a size on the device can say, and when. -/
structure Delivery where
  bytes : Bytes
  now : Nat
  fits : bytes.length < 4294967296

def received (reads : List Delivery) : Bytes := (reads.map Delivery.bytes).flatten

namespace RxStream

def fresh (completed : UInt32) : RxStream := ⟨Decoder.fresh completed, 0, false⟩

/-- Read after read, up to the first that fails. -/
def feedAll {σ : Type} (emit : σ → Bytes → σ × Bool) (s : RxStream) :
    List Delivery → σ → RxStream × σ × Bool
  | [], ctx => (s, ctx, true)
  | read :: reads, ctx =>
    let after := s.feed emit read.bytes read.now ctx
    if after.2.2 then feedAll emit after.1 reads after.2.1 else after

end RxStream

/-- The bytes end inside of the frame that starts there. -/
def EndsInside (packets : List Bytes) (bytes : Bytes) (start : Nat) : Prop :=
  ∃ before pkt after part, packets = before ++ pkt :: after ∧ bytes = Bridge.frames before ++ part ∧
    part ≠ [] ∧ part.length < 4 + pkt.length ∧ start = (Bridge.frames before).length

def deliveredAt : List Delivery → Nat → Option Nat
  | [], _ => none
  | read :: reads, position =>
    if position < read.bytes.length then some read.now
    else deliveredAt reads (position - read.bytes.length)

theorem received_append (reads : List Delivery) (read : Delivery) :
    received (reads ++ [read]) = received reads ++ read.bytes := by
  simp [received]

theorem deliveredAt_earlier {reads : List Delivery} {position : Nat} (read : Delivery)
    (h : position < (received reads).length) :
    deliveredAt (reads ++ [read]) position = deliveredAt reads position := by
  induction reads generalizing position with
  | nil => exact absurd h (Nat.not_lt_zero _)
  | cons first reads ih =>
    have hlength : (received (first :: reads)).length =
        first.bytes.length + (received reads).length := by
      simp [received]
    rw [cons_append, deliveredAt, deliveredAt]
    split
    case isTrue => rfl
    case isFalse hlater => exact ih (by omega)

theorem deliveredAt_last {reads : List Delivery} {position : Nat} {read : Delivery}
    (hfrom : (received reads).length ≤ position)
    (hto : position < (received reads).length + read.bytes.length) :
    deliveredAt (reads ++ [read]) position = some read.now := by
  induction reads generalizing position with
  | nil => rw [nil_append, deliveredAt, if_pos (by simpa [received] using hto)]
  | cons first reads ih =>
    have hlength : (received (first :: reads)).length =
        first.bytes.length + (received reads).length := by
      simp [received]
    rw [cons_append, deliveredAt, if_neg (by omega)]
    exact ih (by omega) (by omega)

/-- Whole frames and less than one more say where the frame starts that the bytes end inside of. -/
theorem endsInside_iff {done rest : List Bytes} {part : Bytes} {start : Nat}
    (hshort : ∀ pkt more, rest = pkt :: more → part.length < 4 + pkt.length)
    (hrest : part ≠ [] → rest ≠ []) :
    EndsInside (done ++ rest) (Bridge.frames done ++ part) start ↔
      part ≠ [] ∧ start = (Bridge.frames done).length := by
  constructor
  · rintro ⟨before, pkt, after, other, hpackets, hbytes, hne, hless, rfl⟩
    have hdone := @within_frames done rest part hshort
    have hbefore := @within_frames before (pkt :: after) other (by
      rintro next more ⟨⟩
      exact hless)
    rw [hpackets, hbytes, hbefore] at hdone
    subst hdone
    rw [append_cancel_left hbytes]
    exact ⟨hne, rfl⟩
  · rintro ⟨hne, rfl⟩
    obtain ⟨pkt, after, rfl⟩ := exists_cons_of_ne_nil (hrest hne)
    exact ⟨done, pkt, after, part, rfl, rfl, hne, hshort pkt after rfl, rfl⟩

/-- The stream has followed the reads: the packets handed over, those that are still to come, and
the time of the frame in between. -/
structure RxStream.Follows (s : RxStream) (handed rest : List Bytes) (reads : List Delivery)
    (future : Bytes) : Prop where
  bytes : received reads = Bridge.frames handed ++ s.decoder.held
  decoder : s.decoder.Reads rest future
  short : ∀ pkt more, rest = pkt :: more → s.decoder.held.length < 4 + pkt.length
  active : s.partialActive = true ↔ s.decoder.held ≠ []
  since : s.decoder.held ≠ [] →
    deliveredAt reads (Bridge.frames handed).length = some s.partialSince

theorem Decoder.Between.header_nil_iff {d : Decoder} (h : d.Between) :
    d.header = [] ↔ d.held = [] := by
  cases h with
  | inHeader _ hpacket _ => rw [Decoder.held, hpacket, append_nil]
  | inPacket hheader _ _ _ _ =>
    rw [Decoder.held, append_eq_nil_iff]
    refine ⟨fun hnil => ?_, fun hnil => hnil.1⟩
    rw [hnil] at hheader
    cases hheader

theorem Decoder.Reads.rest_ne_nil {d : Decoder} {rest : List Bytes} {future : Bytes}
    (h : d.Reads rest future) (hne : d.held ≠ []) : rest ≠ [] := by
  rintro rfl
  exact hne (append_eq_nil_iff.mp h.stream).1

theorem frames_few {now : List Bytes} (hsizes : ∀ p ∈ now, 20 ≤ p.length)
    (hfew : (Bridge.frames now).length < 4294967296 + 1404) : now.length < 4294967296 := by
  have hall : ∀ now : List Bytes, (∀ p ∈ now, 20 ≤ p.length) →
      24 * now.length ≤ (Bridge.frames now).length := by
    intro now
    induction now with
    | nil => exact fun _ => Nat.le_refl 0
    | cons p rest ih =>
      intro hsizes
      have hp := hsizes p mem_cons_self
      have hrest := ih fun other hother => hsizes other (mem_cons_of_mem _ hother)
      rw [Bridge.frames_cons, length_append, Bridge.encodeCleanVpnFramedPkt_length,
        length_cons]
      omega
  have := hall now hsizes
  omega

theorem count_moves {completed : UInt32} {n : Nat} (hpos : 0 < n) (hfew : n < 4294967296) :
    completed + UInt32.ofNat n ≠ completed := by
  intro hsame
  have hvalue := congrArg UInt32.toNat hsame
  have hbound := completed.toNat_lt
  rw [UInt32.toNat_add, UInt32.toNat_ofNat'] at hvalue
  omega

section Feed

variable {σ : Type} {emit : σ → Bytes → σ × Bool}

variable {handed rest : List Bytes} {future : Bytes} {s : RxStream}

theorem RxStream.Follows.feed {reads : List Delivery} (read : Delivery) (h : s.Follows handed rest reads (read.bytes ++ future))
    {ctx : σ} (hok : (s.feed emit read.bytes read.now ctx).2.2 = true) :
    ∃ now later, rest = now ++ later ∧
      (s.feed emit read.bytes read.now ctx).1.Follows (handed ++ now) later (reads ++ [read])
        future := by
  obtain ⟨now, later, hrest, hdecoded, -, hreads, -, part, hbytes, hheld, hshort⟩ :=
    h.decoder.decode emit ctx
  obtain ⟨hdecoder, hresult⟩ := s.feed_decoder emit read.bytes read.now ctx
  rw [hresult] at hok
  have htaken := hdecoded.symm.trans hok
  have hafter := hreads htaken
  obtain ⟨hpart, hcount⟩ := hheld htaken
  have hall : received (reads ++ [read]) = Bridge.frames (handed ++ now) ++ part := by
    rw [received_append, h.bytes, append_assoc, hbytes, Bridge.frames_append,
      append_assoc]
  have hlengths := congrArg List.length hbytes
  have hsofar := congrArg List.length h.bytes
  rw [length_append, length_append] at hlengths
  rw [length_append] at hsofar
  have hframes : (Bridge.frames (handed ++ now)).length =
      (Bridge.frames handed).length + (Bridge.frames now).length := by
    rw [Bridge.frames_append, length_append]
  have hfeed : (s.feed emit read.bytes read.now ctx).1 =
      if part = [] then ⟨(decode emit s.decoder read.bytes ctx).decoder, s.partialSince, false⟩
      else if s.partialActive = false ∨ now ≠ [] then
        ⟨(decode emit s.decoder read.bytes ctx).decoder, read.now, true⟩
      else ⟨(decode emit s.decoder read.bytes ctx).decoder, s.partialSince, s.partialActive⟩ := by
    have hheader := hafter.between.header_nil_iff
    rw [hpart] at hheader
    have hmoved : (decode emit s.decoder read.bytes ctx).decoder.completed ≠ s.decoder.completed ↔
        now ≠ [] := by
      rw [hcount]
      constructor
      · rintro hne rfl
        exact hne (by simp)
      · intro hne
        refine count_moves (length_pos_iff.mpr hne) (frames_few (fun p hp => ?_) ?_)
        · exact ipv4Valid_length (h.decoder.carried p
            (by rw [hrest]; exact mem_append_left _ hp)).1
        · have hbetween := h.decoder.between.held_length
          have hfits := read.fits
          unfold mtu at hbetween
          omega
    unfold RxStream.feed
    simp only [if_pos hok, hheader, hmoved]
    split
    · rfl
    · split <;> rfl
  have hfollows : ∀ since active, (active = true ↔ part ≠ []) →
      (part ≠ [] →
        deliveredAt (reads ++ [read]) (Bridge.frames (handed ++ now)).length = some since) →
      RxStream.Follows ⟨(decode emit s.decoder read.bytes ctx).decoder, since, active⟩
        (handed ++ now) later (reads ++ [read]) future := by
    intro since active hactive hsince
    rw [← hpart] at hactive hsince hall hshort
    exact ⟨hall, hafter, hshort, hactive, hsince⟩
  refine ⟨now, later, hrest, ?_⟩
  rw [hfeed]
  by_cases hnone : part = []
  case pos =>
    rw [if_pos hnone]
    exact hfollows _ _ ⟨(fun heq => by cases heq), fun hne => absurd hnone hne⟩
      fun hne => absurd hnone hne
  have hpartLength := length_pos_iff.mpr hnone
  rw [if_neg hnone]
  split
  case isTrue hnew =>
    -- The frame begins with this read.
    refine hfollows _ _ ⟨fun _ => hnone, fun _ => rfl⟩ fun _ => deliveredAt_last ?_ (by omega)
    cases now with
    | nil =>
      have hinactive : s.partialActive = false := hnew.resolve_right fun hne => hne rfl
      have hempty : s.decoder.held = [] := by
        by_contra hne
        rw [h.active.mpr hne] at hinactive
        cases hinactive
      rw [hempty, length_nil] at hsofar
      omega
    | cons first more =>
      have hless := h.short first (more ++ later) hrest
      rw [Bridge.frames_cons, length_append,
        Bridge.encodeCleanVpnFramedPkt_length] at hframes
      omega
  case isFalse hold =>
    rw [not_or, Bool.not_eq_false, not_not] at hold
    obtain ⟨hactive, rfl⟩ := hold
    have hne := h.active.mp hactive
    have hpos := length_pos_iff.mpr hne
    refine hfollows _ _ ⟨fun _ => hnone, fun _ => hactive⟩ fun _ => ?_
    rw [append_nil, deliveredAt_earlier read (by omega)]
    exact h.since hne

theorem received_cons (read : Delivery) (reads : List Delivery) :
    received (read :: reads) = read.bytes ++ received reads := by
  simp [received]

theorem RxStream.Follows.feedAll {before : List Delivery} (reads : List Delivery)
    (h : s.Follows handed rest before (received reads ++ future)) {ctx : σ}
    (hok : (s.feedAll emit reads ctx).2.2 = true) :
    ∃ now later, rest = now ++ later ∧
      (s.feedAll emit reads ctx).1.Follows (handed ++ now) later (before ++ reads) future := by
  induction reads generalizing s handed rest before ctx with
  | nil =>
    refine ⟨[], rest, rfl, ?_⟩
    rw [append_nil, append_nil]
    exact h
  | cons read reads ih =>
    rw [received_cons, append_assoc] at h
    rw [RxStream.feedAll] at hok ⊢
    split at hok
    case isTrue haccepted =>
      obtain ⟨now, later, rfl, hnext⟩ := h.feed read haccepted
      obtain ⟨now', later', rfl, hlast⟩ := ih hnext hok
      refine ⟨now ++ now', later', (append_assoc _ _ _).symm, ?_⟩
      rw [if_pos haccepted, ← append_assoc, append_cons]
      exact hlast
    case isFalse hrefused => exact absurd hok hrefused

theorem emitAll_accepts (hemit : ∀ ctx p, (emit ctx p).2 = true) (packets : List Bytes) (ctx : σ) :
    (emitAll emit ctx packets).2 = true := by
  induction packets generalizing ctx with
  | nil => rfl
  | cons p rest ih =>
    rw [emitAll, if_pos (hemit ctx p)]
    exact ih _

theorem RxStream.Follows.accepted (hemit : ∀ ctx p, (emit ctx p).2 = true) {before : List Delivery} (reads : List Delivery)
    (h : s.Follows handed rest before (received reads ++ future)) (ctx : σ) :
    (s.feedAll emit reads ctx).2.2 = true := by
  induction reads generalizing s handed rest before ctx with
  | nil => rfl
  | cons read reads ih =>
    rw [received_cons, append_assoc] at h
    have hok : (s.feed emit read.bytes read.now ctx).2.2 = true := by
      obtain ⟨now, -, -, hdecoded, -⟩ := h.decoder.decode emit ctx
      rw [(s.feed_decoder emit read.bytes read.now ctx).2]
      exact hdecoded.trans (emitAll_accepts hemit now ctx)
    obtain ⟨now, later, -, hnext⟩ := h.feed read hok
    rw [RxStream.feedAll, if_pos hok]
    exact ih hnext _

theorem RxStream.fresh_follows {packets : List Bytes} (hcarried : ∀ pkt ∈ packets, Carried pkt)
    (completed : UInt32) :
    (RxStream.fresh completed).Follows [] packets [] (Bridge.frames packets) :=
  ⟨rfl, ⟨Decoder.fresh_between completed, rfl, hcarried⟩,
    fun pkt _ _ => by simp [RxStream.fresh, Decoder.fresh, Decoder.held],
    ⟨(fun h => by cases h), fun h => absurd rfl h⟩, fun h => absurd rfl h⟩

/-- After any reads of a stream of frames the stream has a deadline exactly when it ends inside of
a frame, and the deadline counts from the read that brought the frame's first byte; so it has
passed exactly when that one frame has not been complete for longer than the timeout. -/
theorem receive_deadline (completed : UInt32) {packets : List Bytes}
    (hcarried : ∀ pkt ∈ packets, Carried pkt) {reads : List Delivery} {future : Bytes}
    (hstream : received reads ++ future = Bridge.frames packets) (ctx : σ) :
    ((∀ ctx p, (emit ctx p).2 = true) →
      ((RxStream.fresh completed).feedAll emit reads ctx).2.2 = true) ∧
    (((RxStream.fresh completed).feedAll emit reads ctx).2.2 = true →
      (((RxStream.fresh completed).feedAll emit reads ctx).1.partialActive = true ↔
        ∃ start, EndsInside packets (received reads) start) ∧
      (∀ start, EndsInside packets (received reads) start → deliveredAt reads start =
        some ((RxStream.fresh completed).feedAll emit reads ctx).1.partialSince) ∧
      ∀ now, (∀ read ∈ reads, read.now ≤ now) →
        (((RxStream.fresh completed).feedAll emit reads ctx).1.expired now = true ↔
          ∃ start since, EndsInside packets (received reads) start ∧
            deliveredAt reads start = some since ∧ since ≤ now ∧
            since + streamTimeoutUs < now)) := by
  have hfresh := RxStream.fresh_follows hcarried completed
  rw [← hstream] at hfresh
  refine ⟨fun hemit => hfresh.accepted hemit reads ctx, fun hok => ?_⟩
  obtain ⟨handed, rest, rfl, h⟩ := hfresh.feedAll reads hok
  rw [List.nil_append, List.nil_append] at h
  generalize ((RxStream.fresh completed).feedAll emit reads ctx).1 = after at h
  have hinside : ∀ start, EndsInside (handed ++ rest) (received reads) start ↔
      after.decoder.held ≠ [] ∧ start = (Bridge.frames handed).length := by
    intro start
    rw [h.bytes]
    exact endsInside_iff h.short h.decoder.rest_ne_nil
  refine ⟨?_, fun start hstart => ?_, fun now hnow => ?_⟩
  · rw [h.active]
    exact ⟨fun hne => ⟨_, (hinside _).mpr ⟨hne, rfl⟩⟩,
      fun ⟨start, hstart⟩ => ((hinside start).mp hstart).1⟩
  · obtain ⟨hne, rfl⟩ := (hinside start).mp hstart
    exact h.since hne
  · unfold RxStream.expired
    rw [Bool.and_eq_true, decide_eq_true_eq, h.active]
    constructor
    · rintro ⟨hne, hlong⟩
      exact ⟨_, _, (hinside _).mpr ⟨hne, rfl⟩, h.since hne, by omega, by omega⟩
    · rintro ⟨start, since, hstart, hsince, hle, hlong⟩
      obtain ⟨hne, rfl⟩ := (hinside start).mp hstart
      rw [h.since hne] at hsince
      obtain rfl := Option.some.inj hsince
      exact ⟨hne, by omega⟩

end Feed

def shortPacket : Bytes :=
  [0x45, 0, 0, 28, 0, 0, 0, 0, 64, 17, 0, 0, 10, 0, 0, 1, 10, 0, 0, 2, 0, 80, 0, 80, 0, 8, 0, 0]

/-- Two bytes of a header have a deadline of their own. -/
theorem receive_deadline_header :
    (∀ pkt ∈ [shortPacket], Carried pkt) ∧
    deliveredAt [⟨[0, 0], 100, by decide⟩] 0 = some 100 ∧
    ∃ start, EndsInside [shortPacket] (received [⟨[0, 0], 100, by decide⟩]) start := by
  have hcarried : ∀ pkt ∈ [shortPacket], Carried pkt := by
    intro pkt hpkt
    rw [List.mem_singleton.mp hpkt]
    exact ⟨by decide, by decide⟩
  have h := @receive_deadline (List Bytes) record 0 [shortPacket] hcarried
    [⟨[0, 0], 100, by decide⟩] ([0, 28] ++ shortPacket) (by decide) []
  exact ⟨hcarried, rfl, ((h.2 (by decide)).1).mp (by decide)⟩

end Meshpn.Device

import Mathlib.Data.List.Induction
import Meshpn.Device.FrameDecoding
import Meshpn.Device.RxBatch

/-!
When the batch of a read takes every packet. A read hands over the packets whose
frames end in it. The batch takes them if there are slots and bytes for them, and
then its slots give the packets back; the bytes depend on an option that is meant
for datagrams, the slots do not depend on the size of a read. Offsets of a stream
are always small; those of a drain of datagrams may not fit sixteen bits.
-/

namespace Meshpn.Device

open Meshpn.Lib List

def totalLength (packets : List Bytes) : Nat := packets.flatten.length

@[simp] theorem totalLength_nil : totalLength [] = 0 := rfl

@[simp] theorem totalLength_cons (p : Bytes) (rest : List Bytes) :
    totalLength (p :: rest) = p.length + totalLength rest := by
  simp [totalLength]

def Fits (udpRxBatchFrames : Nat) (packets : List Bytes) : Prop :=
  packets.length ≤ rxBatchFrames ∧ totalLength packets ≤ rxBatchBytes udpRxBatchFrames

instance (udpRxBatchFrames : Nat) (packets : List Bytes) :
    Decidable (Fits udpRxBatchFrames packets) :=
  inferInstanceAs (Decidable (_ ∧ _))

def placed : Nat → List Bytes → List (Nat × Nat)
  | _, [] => []
  | start, p :: rest => (start, p.length) :: placed (start + p.length) rest

namespace RxBatch

/-- The slots say where the packets lie: no offset and no length was cut to sixteen bits. -/
def Exact (batch : RxBatch) (packets : List Bytes) : Prop :=
  batch.slots.map (fun slot => (slot.offset.toNat, slot.length.toNat)) = placed 0 packets

def taking (batch : RxBatch) (packets : List Bytes) : RxBatch :=
  ⟨batch.slots ++ (placed batch.data.length packets).map fun place =>
      ⟨UInt16.ofNat place.1, UInt16.ofNat place.2⟩,
    batch.data ++ packets.flatten⟩

theorem emitAll_receivePacket (udpRxBatchFrames : Nat) {batch : RxBatch} {packets : List Bytes}
    (hsizes : ∀ p ∈ packets, p.length ≤ mtu) (hslots : batch.slots.length ≤ rxBatchFrames)
    (hroom : batch.data.length ≤ rxBatchBytes udpRxBatchFrames) :
    ((emitAll (receivePacket udpRxBatchFrames) batch packets).2 = true ↔
      batch.slots.length + packets.length ≤ rxBatchFrames ∧
        batch.data.length + totalLength packets ≤ rxBatchBytes udpRxBatchFrames) ∧
    ((emitAll (receivePacket udpRxBatchFrames) batch packets).2 = true →
      (emitAll (receivePacket udpRxBatchFrames) batch packets).1 = batch.taking packets) := by
  induction packets generalizing batch with
  | nil =>
    refine ⟨?_, fun _ => by simp [emitAll, taking, placed]⟩
    simp only [emitAll, true_iff]
    exact ⟨hslots, hroom⟩
  | cons p rest ih =>
    have hp := hsizes p mem_cons_self
    have hrest : ∀ q ∈ rest, q.length ≤ mtu := fun q hq => hsizes q (mem_cons_of_mem _ hq)
    by_cases hrefused : batch.slots.length = rxBatchFrames ∨
        batch.data.length + p.length > rxBatchBytes udpRxBatchFrames
    · have hemit : receivePacket udpRxBatchFrames batch p = (batch, false) := by
        unfold receivePacket
        rw [if_pos (by omega)]
      simp only [emitAll, hemit, Bool.false_eq_true, if_false, length_cons, totalLength_cons,
        false_iff, false_implies, and_true]
      omega
    · have hemit : receivePacket udpRxBatchFrames batch p =
          (⟨batch.slots ++ [⟨UInt16.ofNat batch.data.length, UInt16.ofNat p.length⟩],
            batch.data ++ p⟩, true) := by
        unfold receivePacket
        rw [if_neg (by omega)]
      obtain ⟨hiff, htaking⟩ := @ih
        ⟨batch.slots ++ [⟨UInt16.ofNat batch.data.length, UInt16.ofNat p.length⟩], batch.data ++ p⟩
        hrest (by simp only [length_append, length_singleton]; omega)
        (by simp only [length_append]; omega)
      simp only [emitAll, hemit, if_true, length_cons, totalLength_cons]
      refine ⟨?_, ?_⟩
      · rw [hiff]
        simp only [length_append, length_singleton]
        omega
      · intro htaken
        rw [htaking htaken]
        simp [taking, placed]

theorem taking_empty_exact (packets : List Bytes) :
    (empty.taking packets).Exact packets ↔
      ∀ place ∈ placed 0 packets, place.1 < 65536 ∧ place.2 < 65536 := by
  have hmap : (empty.taking packets).Exact packets ↔
      (placed 0 packets).map (fun place => (place.1 % 65536, place.2 % 65536)) =
        (placed 0 packets).map id := by
    simp only [Exact, taking, empty, nil_append, map_map, length_nil, map_id]
    have hcut : ((fun slot : RxSlot => (slot.offset.toNat, slot.length.toNat)) ∘
        fun place : Nat × Nat => (⟨UInt16.ofNat place.1, UInt16.ofNat place.2⟩ : RxSlot)) =
        fun place => (place.1 % 65536, place.2 % 65536) := by
      funext place
      simp [UInt16.toNat_ofNat']
    rw [hcut]
  rw [hmap, map_inj_left]
  refine forall_congr' fun place => forall_congr' fun _ => ?_
  simp only [id, Prod.ext_iff]
  omega

theorem Exact.slices {batch : RxBatch} {packets : List Bytes} (hexact : batch.Exact packets)
    (hdata : batch.data = packets.flatten) : batch.slices = packets := by
  have hplaces : ∀ front rest : List Bytes, front ++ rest = packets →
      (placed (totalLength front) rest).map
        (fun place => (batch.data.drop place.1).take place.2) = rest := by
    intro front rest hsplit
    induction rest generalizing front with
    | nil => rfl
    | cons p rest ih =>
      have hlater := ih (front ++ [p]) (by simpa using hsplit)
      have hlength : totalLength (front ++ [p]) = totalLength front + p.length := by
        simp [totalLength]
      have hdrop : batch.data.drop (totalLength front) = p ++ rest.flatten := by
        rw [hdata, ← hsplit, flatten_append, totalLength, drop_left]
        rfl
      rw [hlength] at hlater
      rw [placed, map_cons, hlater, hdrop, take_left]
  have hslices : batch.slices =
      (batch.slots.map fun slot => (slot.offset.toNat, slot.length.toNat)).map
        fun place => (batch.data.drop place.1).take place.2 := by
    rw [map_map]
    rfl
  have hexact' : batch.slots.map (fun slot => (slot.offset.toNat, slot.length.toNat)) =
      placed 0 packets := hexact
  rw [hslices, hexact']
  exact hplaces [] packets rfl

end RxBatch

variable {packets : List Bytes}

theorem mem_placed {start : Nat} (hsizes : ∀ p ∈ packets, p.length ≤ mtu)
    {place : Nat × Nat} (hplace : place ∈ placed start packets) :
    place.1 ≤ start + totalLength packets.dropLast ∧ place.2 ≤ mtu := by
  induction packets generalizing start with
  | nil => simp [placed] at hplace
  | cons p rest ih =>
    have hp := hsizes p mem_cons_self
    rw [placed, mem_cons] at hplace
    cases hplace with
    | inl hfirst =>
      subst hfirst
      exact ⟨Nat.le_add_right _ _, hp⟩
    | inr hlater =>
      obtain ⟨hoffset, hlength⟩ := ih (fun q hq => hsizes q (mem_cons_of_mem _ hq)) hlater
      cases rest with
      | nil => simp [placed] at hlater
      | cons q rest =>
        rw [dropLast_cons_cons, totalLength_cons]
        omega

theorem last_mem_placed (start : Nat) (hsome : packets ≠ []) :
    ∃ length, (start + totalLength packets.dropLast, length) ∈ placed start packets := by
  induction packets generalizing start with
  | nil => contradiction
  | cons p rest ih =>
    rcases rest with _ | ⟨q, rest⟩
    · exact ⟨p.length, by simp [placed]⟩
    obtain ⟨length, hlast⟩ := ih (start + p.length) (by simp)
    refine ⟨length, ?_⟩
    rw [dropLast_cons_cons, totalLength_cons, ← Nat.add_assoc]
    exact mem_cons_of_mem _ hlast

theorem RxBatch.taking_exact (hsizes : ∀ p ∈ packets, p.length ≤ mtu) :
    (RxBatch.empty.taking packets).Exact packets ↔ totalLength packets.dropLast < 65536 := by
  rw [RxBatch.taking_empty_exact]
  constructor
  · intro hfit
    by_cases hsome : packets = []
    · subst hsome
      decide
    · obtain ⟨length, hlast⟩ := last_mem_placed 0 hsome
      have hoffset := (hfit _ hlast).1
      omega
  · intro hlast place hplace
    obtain ⟨hoffset, hlength⟩ := mem_placed hsizes hplace
    have hmtu : mtu < 65536 := by decide
    omega

theorem RxBatch.taking_slots {now : List Bytes} (hnone : (RxBatch.empty.taking now).slots = []) :
    now = [] := by
  cases now with
  | nil => rfl
  | cons p rest => simp [RxBatch.taking, RxBatch.empty, placed] at hnone

/-- The packets whose frames end within the first `n` bytes of their stream. -/
def within : Nat → List Bytes → List Bytes
  | _, [] => []
  | n, pkt :: rest =>
    if 4 + pkt.length ≤ n then pkt :: within (n - (4 + pkt.length)) rest else []

/-- The packets whose frames end after the first `start` and within the first `stop` bytes. -/
def endingIn (packets : List Bytes) (start stop : Nat) : List Bytes :=
  (within stop packets).drop (within start packets).length

theorem within_frames {done rest : List Bytes} {part : Bytes}
    (hshort : ∀ pkt more, rest = pkt :: more → part.length < 4 + pkt.length) :
    within (Bridge.frames done ++ part).length (done ++ rest) = done := by
  induction done with
  | nil =>
    rcases rest with _ | ⟨pkt, more⟩
    · rfl
    have hless := hshort pkt more rfl
    simp only [Bridge.frames_nil, nil_append, within]
    rw [if_neg (by omega)]
  | cons pkt done ih =>
    have hlength : (Bridge.frames (pkt :: done) ++ part).length =
        4 + pkt.length + (Bridge.frames done ++ part).length := by
      simp only [Bridge.frames_cons, length_append, Bridge.encodeCleanVpnFramedPkt_length]
      omega
    rw [hlength, cons_append, within, if_pos (by omega), Nat.add_sub_cancel_left, ih]

theorem totalLength_le_frames (packets : List Bytes) :
    totalLength packets ≤ (Bridge.frames packets).length := by
  induction packets with
  | nil => exact Nat.zero_le _
  | cons pkt rest ih =>
    rw [totalLength_cons, Bridge.frames_cons, length_append,
      Bridge.encodeCleanVpnFramedPkt_length]
    omega

theorem totalLength_dropLast_le (packets : List Bytes) :
    totalLength packets.dropLast ≤ totalLength packets := by
  rcases eq_nil_or_concat packets with rfl | ⟨front, last, rfl⟩
  · exact Nat.le_refl _
  · simp [totalLength]

theorem Decoder.Between.held_length {d : Decoder} (hd : d.Between) : d.held.length < 4 + mtu := by
  rw [Decoder.held, length_append]
  cases hd with
  | inHeader hheader hpacket _ =>
    rw [hpacket, length_nil]
    omega
  | inPacket hheader _ _ hmax hpart => omega

namespace RxLink

/-- After `bytes` of the stream the packets that ended in them are handed over, and the decoder
holds the rest. -/
structure Follows (link : RxLink) (packets : List Bytes) (bytes future : Bytes)
    (rest : List Bytes) : Prop where
  packets : packets = link.handed ++ rest
  bytes : bytes = Bridge.frames link.handed ++ link.stream.decoder.held
  reads : link.stream.decoder.Reads rest future
  short : ∀ pkt more, rest = pkt :: more →
    link.stream.decoder.held.length < 4 + pkt.length

theorem Follows.handed_eq {link : RxLink} {packets : List Bytes} {bytes future : Bytes}
    {rest : List Bytes} (hlink : link.Follows packets bytes future rest) :
    link.handed = within bytes.length packets := by
  rw [hlink.packets, hlink.bytes, within_frames hlink.short]

/-- The batch of a read takes the packets that end in it if and only if they fit, and then its
slots are exact. -/
theorem Follows.load {link : RxLink} {packets : List Bytes} {bytes future : Bytes}
    {rest : List Bytes} {r : Read} (hlink : link.Follows packets bytes (r.bytes ++ future) rest)
    (udpRxBatchFrames : Nat) (hread : r.bytes.length ≤ socketRxBytes) :
    ∃ now later, rest = now ++ later ∧
      now = endingIn packets bytes.length (bytes ++ r.bytes).length ∧
      ((link.load udpRxBatchFrames r).2.2 = true ↔ Fits udpRxBatchFrames now) ∧
      (Fits udpRxBatchFrames now →
        (link.load udpRxBatchFrames r).2.1 = RxBatch.empty.taking now ∧
        (RxBatch.empty.taking now).Exact now ∧
        (link.load udpRxBatchFrames r).1.decoder.Reads later future ∧
        bytes ++ r.bytes = Bridge.frames (link.handed ++ now) ++
          (link.load udpRxBatchFrames r).1.decoder.held ∧
        ∀ pkt more, later = pkt :: more →
          (link.load udpRxBatchFrames r).1.decoder.held.length < 4 + pkt.length) := by
  obtain ⟨now, later, hrest, hok, hctx, hreads, -, part, hbytes, hheld, hshort⟩ :=
    hlink.reads.decode (RxBatch.receivePacket udpRxBatchFrames) RxBatch.empty
  obtain ⟨hdecoder, hresult⟩ := RxStream.feed_decoder
    (RxBatch.receivePacket udpRxBatchFrames) link.stream r.bytes r.now RxBatch.empty
  have hsizes : ∀ p ∈ now, p.length ≤ mtu := fun p hp =>
    (hlink.reads.carried p (by rw [hrest]; exact mem_append_left _ hp)).2
  obtain ⟨hiff, htaking⟩ := @RxBatch.emitAll_receivePacket udpRxBatchFrames RxBatch.empty now
    hsizes (Nat.zero_le _) (Nat.zero_le _)
  have hfits : (emitAll (RxBatch.receivePacket udpRxBatchFrames) RxBatch.empty now).2 = true ↔
      Fits udpRxBatchFrames now := by
    rw [hiff]
    simp only [RxBatch.empty, length_nil, Nat.zero_add]
    rfl
  have hall : bytes ++ r.bytes = Bridge.frames (link.handed ++ now) ++ part := by
    rw [hlink.bytes, append_assoc, hbytes, Bridge.frames_append, append_assoc]
  have hending : now = endingIn packets bytes.length (bytes ++ r.bytes).length := by
    have hstop : within (bytes ++ r.bytes).length packets = link.handed ++ now := by
      rw [hall, hlink.packets, hrest, ← append_assoc]
      exact within_frames hshort
    rw [endingIn, hstop, ← hlink.handed_eq, drop_left]
  have hsmall : totalLength now.dropLast < 65536 := by
    have hlength := congrArg List.length hbytes
    rw [length_append, length_append] at hlength
    have hbetween := hlink.reads.between.held_length
    have hdrop := totalLength_dropLast_le now
    have hframes := totalLength_le_frames now
    unfold socketRxBytes at hread
    unfold mtu at hbetween
    omega
  refine ⟨now, later, hrest, hending, ?_, ?_⟩
  · rw [RxLink.load, hresult, hok, hfits]
  intro hfit
  have htaken := hfits.mpr hfit
  refine ⟨?_, (RxBatch.taking_exact hsizes).mpr hsmall, ?_, ?_, ?_⟩
  · rw [RxLink.load, hresult, hctx]
    exact htaking htaken
  · rw [RxLink.load, hdecoder]
    exact hreads htaken
  · rw [RxLink.load, hdecoder, (hheld htaken).1]
    exact hall
  · rw [RxLink.load, hdecoder, (hheld htaken).1]
    exact hshort

end RxLink

theorem injectLoop_handed (env : Nat → InjectEnv) (i : Nat) (packets : List Bytes) :
    (injectLoop env i packets).handed <+: packets ∧
      ((injectLoop env i packets).ok = true → (injectLoop env i packets).handed = packets) ∧
      (injectLoop env i packets).stack.Sublist
        ((injectLoop env i packets).handed.filterMap normalise) := by
  induction packets generalizing i with
  | nil => exact ⟨prefix_rfl, fun _ => rfl, List.Sublist.slnil⟩
  | cons p rest ih =>
    obtain ⟨hpre, hall, hstack⟩ := ih (i + 1)
    unfold injectLoop
    split
    case h_1 => exact ⟨⟨rest, rfl⟩, nofun, nil_sublist _⟩
    case h_2 =>
      refine ⟨prefix_cons_inj p |>.mpr hpre, fun hok => congrArg _ (hall hok), ?_⟩
      refine hstack.trans ?_
      exact (sublist_cons_self p _).filterMap _
    case h_3 q hinput =>
      have hnormal : normalise p = some q := by
        unfold injectPacket at hinput
        split at hinput
        case isFalse => contradiction
        split at hinput
        case isFalse => contradiction
        split at hinput
        case h_1 found hfound =>
          cases hinput
          exact hfound
        case h_2 => contradiction
      refine ⟨prefix_cons_inj p |>.mpr hpre, fun hok => congrArg _ (hall hok), ?_⟩
      rw [filterMap_cons_some hnormal]
      exact hstack.cons_cons q

theorem injectBatch_handed (session : Bool) (env : Nat → InjectEnv) (batch : RxBatch) :
    (injectBatch session env batch).handed <+: batch.slices ∧
      ((injectBatch session env batch).ok = true →
        (injectBatch session env batch).handed = batch.slices) ∧
      (injectBatch session env batch).stack.Sublist
        ((injectBatch session env batch).handed.filterMap normalise) := by
  unfold injectBatch
  split
  · exact injectLoop_handed env 0 batch.slices
  · refine ⟨?_, nofun, List.Sublist.slnil⟩
    exact nil_prefix

def bytesRead : List RxEvent → Bytes
  | [] => []
  | .read r :: events => r.bytes ++ bytesRead events
  | .tick _ :: events | .recvError :: events | .sessionOver :: events => bytesRead events

theorem bytesRead_append (events later : List RxEvent) :
    bytesRead (events ++ later) = bytesRead events ++ bytesRead later := by
  induction events with
  | nil => rfl
  | cons event events ih => cases event <;> simp [bytesRead, ih]

namespace RxLink

/-- In every state of a run: a loop that goes on follows the stream, the packets handed to the
stack are the first of the stream, and the stack gets what normalising makes of them. -/
structure Sound (link : RxLink) (packets : List Bytes) (bytes future : Bytes) : Prop where
  live : link.ended = none → ∃ rest, link.Follows packets bytes future rest
  handed : link.handed <+: packets
  stack : link.stack.Sublist (link.handed.filterMap normalise)

theorem Sound.read {link : RxLink} {packets : List Bytes} {bytes future : Bytes} {r : Read}
    (hlink : link.Sound packets bytes (r.bytes ++ future)) (hlive : link.ended = none)
    (udpRxBatchFrames : Nat) (hread : r.bytes.length ≤ socketRxBytes) :
    (link.read udpRxBatchFrames r).Sound packets (bytes ++ r.bytes) future ∧
      (Fits udpRxBatchFrames (endingIn packets bytes.length (bytes ++ r.bytes).length) →
        (link.read udpRxBatchFrames r).ended ≠ some .invalidFrame) := by
  obtain ⟨rest, hfollows⟩ := hlink.live hlive
  obtain ⟨now, later, hrest, hnow, hiff, hfit⟩ := hfollows.load udpRxBatchFrames hread
  rw [← hnow]
  unfold RxLink.read
  rcases hload : link.load udpRxBatchFrames r with ⟨stream, batch, ok⟩
  rw [hload] at hiff hfit
  dsimp only at hiff hfit ⊢
  split
  case isTrue => exact ⟨⟨nofun, hlink.handed, hlink.stack⟩, fun _ => by simp⟩
  split
  case isTrue hrefused =>
    refine ⟨⟨nofun, hlink.handed, hlink.stack⟩, fun hfits => ?_⟩
    rw [hiff.mpr hfits] at hrefused
    contradiction
  rename_i htaken
  have hok : ok = true := by simpa using htaken
  obtain ⟨rfl, hexact, hreads, hbytes, hshort⟩ := hfit (hiff.mp hok)
  have hslices : (RxBatch.empty.taking now).slices = now := hexact.slices rfl
  split
  case isTrue hempty =>
    obtain rfl := RxBatch.taking_slots hempty
    refine ⟨⟨fun _ => ⟨later, ?_, ?_, hreads, hshort⟩, hlink.handed, hlink.stack⟩,
      fun _ => by simp [hlive]⟩
    · rw [hfollows.packets, hrest]
      rfl
    · rw [append_nil] at hbytes
      exact hbytes
  case isFalse =>
    obtain ⟨hpre, hall, hstack⟩ := injectBatch_handed r.session r.env (RxBatch.empty.taking now)
    rw [hslices] at hpre hall
    refine ⟨⟨?_, ?_, ?_⟩, fun _ => by dsimp only; split <;> simp⟩
    · intro hnone
      have hdone := hall (by by_contra hfailed; simp [hfailed] at hnone)
      refine ⟨later, ?_, ?_, hreads, hshort⟩
      · dsimp only
        rw [hdone, append_assoc, ← hrest]
        exact hfollows.packets
      · dsimp only
        rw [hdone]
        exact hbytes
    · dsimp only
      rw [hfollows.packets, hrest]
      exact (prefix_append_right_inj _).mpr (hpre.trans (prefix_append now later))
    · dsimp only
      rw [filterMap_append]
      exact hlink.stack.append hstack

theorem Sound.step {link : RxLink} {packets : List Bytes} {bytes future : Bytes} {event : RxEvent}
    (hlink : link.Sound packets bytes (bytesRead [event] ++ future)) (udpRxBatchFrames : Nat)
    (hread : ∀ r, event = .read r → r.bytes.length ≤ socketRxBytes) :
    (link.step udpRxBatchFrames event).Sound packets (bytes ++ bytesRead [event]) future ∧
      (link.ended ≠ some .invalidFrame →
        (∀ r, event = .read r →
          Fits udpRxBatchFrames (endingIn packets bytes.length (bytes ++ r.bytes).length)) →
        (link.step udpRxBatchFrames event).ended ≠ some .invalidFrame) := by
  unfold RxLink.step
  split
  case isTrue hended =>
    refine ⟨⟨fun hnone => ?_, hlink.handed, hlink.stack⟩, fun hvalid _ => hvalid⟩
    rw [hnone] at hended
    contradiction
  rename_i hlive
  have hnone : link.ended = none := by simpa using hlive
  cases event with
  | read r =>
    simp only [bytesRead, append_nil] at hlink ⊢
    obtain ⟨hsound, hfits⟩ := hlink.read hnone udpRxBatchFrames (hread r rfl)
    exact ⟨hsound, fun _ hfit => hfits (hfit r rfl)⟩
  | tick now =>
    simp only [bytesRead, append_nil] at hlink ⊢
    split
    · exact ⟨⟨nofun, hlink.handed, hlink.stack⟩, fun _ _ => by simp⟩
    · exact ⟨hlink, fun hvalid _ => hvalid⟩
  | recvError =>
    exact ⟨⟨nofun, hlink.handed, hlink.stack⟩, fun _ _ => by simp⟩
  | sessionOver =>
    exact ⟨⟨nofun, hlink.handed, hlink.stack⟩, fun _ _ => by simp⟩

theorem init_sound {packets : List Bytes} (hcarried : ∀ pkt ∈ packets, Carried pkt) :
    init.Sound packets [] (Bridge.frames packets) := by
  refine ⟨fun _ => ⟨packets, rfl, rfl, Decoder.init_reads hcarried, ?_⟩, nil_prefix,
    List.Sublist.slnil⟩
  intro pkt more _
  have hnone : init.stream.decoder.held.length = 0 := rfl
  omega

theorem run_sound (udpRxBatchFrames : Nat) {packets : List Bytes}
    (hcarried : ∀ pkt ∈ packets, Carried pkt) {events : List RxEvent} {future : Bytes}
    (hreads : ∀ r, RxEvent.read r ∈ events → r.bytes.length ≤ socketRxBytes)
    (hstream : bytesRead events ++ future = Bridge.frames packets) :
    (run udpRxBatchFrames events).Sound packets (bytesRead events) future ∧
      ((∀ before r after, events = before ++ .read r :: after →
          Fits udpRxBatchFrames (endingIn packets (bytesRead before).length
            (bytesRead before ++ r.bytes).length)) →
        (run udpRxBatchFrames events).ended ≠ some .invalidFrame) := by
  induction events using List.reverseRecOn generalizing future with
  | nil =>
    rw [bytesRead, nil_append] at hstream
    rw [hstream]
    exact ⟨init_sound hcarried, fun _ => by simp [run, init]⟩
  | append_singleton events event ih =>
    rw [bytesRead_append, append_assoc] at hstream
    obtain ⟨hbefore, hvalid⟩ :=
      ih (fun r hr => hreads r (mem_append_left _ hr)) hstream
    obtain ⟨hsound, hstep⟩ := hbefore.step udpRxBatchFrames
      (fun r hr => hreads r (by rw [hr]; simp))
    have hrun : run udpRxBatchFrames (events ++ [event]) =
        (run udpRxBatchFrames events).step udpRxBatchFrames event := by
      simp [run]
    rw [hrun, bytesRead_append]
    refine ⟨hsound, fun hfits => hstep (hvalid ?_) ?_⟩
    · intro before r after hsplit
      exact hfits before r (after ++ [event]) (by rw [hsplit]; simp)
    · intro r hr
      exact hfits events r [] (by rw [hr])

end RxLink

theorem receiveUdpBatch_eq {udpRxBatchFrames : Nat} {datagrams : List Bytes}
    (hcount : datagrams.length ≤ udpRxBatchFrames) (hoption : udpRxBatchFrames ≤ 64)
    (hsizes : ∀ p ∈ datagrams, 20 ≤ p.length ∧ p.length ≤ mtu) :
    receiveUdpBatch udpRxBatchFrames datagrams = (RxBatch.empty.taking datagrams, 0) := by
  have hfold : ∀ f : RxBatch × Nat → Bytes → RxBatch × Nat,
      (∀ batch invalid datagram, f (batch, invalid) datagram =
        if datagram = [] ∨
            (batch.receivePacket udpRxBatchFrames (datagram.take (mtu + 1))).2 = false then
          (batch, invalid + 1)
        else ((batch.receivePacket udpRxBatchFrames (datagram.take (mtu + 1))).1, invalid)) →
      ∀ (packets : List Bytes) (batch : RxBatch),
        (∀ p ∈ packets, 20 ≤ p.length ∧ p.length ≤ mtu) →
        (emitAll (RxBatch.receivePacket udpRxBatchFrames) batch packets).2 = true →
        packets.foldl f (batch, 0) =
          ((emitAll (RxBatch.receivePacket udpRxBatchFrames) batch packets).1, 0) := by
    intro f hf packets
    induction packets with
    | nil => intro batch _ _; rfl
    | cons p rest ih =>
      intro batch hall htaken
      obtain ⟨hmin, hmax⟩ := hall p mem_cons_self
      have hwhole : p.take (mtu + 1) = p := take_of_length_le (by omega)
      have hsome : p ≠ [] := by
        rintro rfl
        simp at hmin
      simp only [emitAll] at htaken ⊢
      split at htaken
      case isTrue hok =>
        rw [foldl_cons, hf]
        simp only [hwhole, hok, hsome]
        exact ih _ (fun q hq => hall q (mem_cons_of_mem _ hq)) htaken
      case isFalse => contradiction
  have htotal : totalLength datagrams ≤ datagrams.length * mtu := by
    clear hfold hcount
    induction datagrams with
    | nil => exact Nat.zero_le _
    | cons p rest ih =>
      have hp := (hsizes p mem_cons_self).2
      have hrest := ih fun q hq => hsizes q (mem_cons_of_mem _ hq)
      rw [totalLength_cons, length_cons, Nat.succ_mul]
      omega
  obtain ⟨hiff, htaking⟩ := @RxBatch.emitAll_receivePacket udpRxBatchFrames RxBatch.empty datagrams
    (fun p hp => (hsizes p hp).2) (Nat.zero_le _) (Nat.zero_le _)
  have hroom : totalLength datagrams ≤ rxBatchBytes udpRxBatchFrames :=
    htotal.trans (Nat.mul_le_mul_right mtu hcount)
  have htaken : (emitAll (RxBatch.receivePacket udpRxBatchFrames) RxBatch.empty datagrams).2 =
      true := by
    refine hiff.mpr ⟨?_, ?_⟩
    · simp only [RxBatch.empty, length_nil, rxBatchFrames]
      omega
    · simp only [RxBatch.empty, length_nil]
      omega
  rw [receiveUdpBatch, take_of_length_le hcount,
    hfold _ (fun _ _ _ => rfl) datagrams RxBatch.empty hsizes htaken, htaking htaken]

/-- A read takes all its packets, stores them without cutting a field and gives them back
exactly if they have a slot each and room together. Whatever a run does, the packets handed to
the stack are those of the stream from its start; while every read fits, no valid frame ends
the connection. A drain of datagrams takes all packets, and its slots are right exactly if the
last offset fits sixteen bits. -/
theorem rx_batch_exact_iff (udpRxBatchFrames : Nat)
    (hoption : 1 ≤ udpRxBatchFrames ∧ udpRxBatchFrames ≤ 64) (packets : List Bytes)
    (hvalid : ∀ pkt ∈ packets, ipv4Valid pkt = true ∧ 20 ≤ pkt.length ∧ pkt.length ≤ 1400) :
    (∀ events : List RxEvent, (∀ r, RxEvent.read r ∈ events → r.bytes.length ≤ 8192) →
      bytesRead events <+: packets.flatMap Bridge.encodeCleanVpnFramedPkt →
      (RxLink.run udpRxBatchFrames events).handed <+: packets ∧
      (RxLink.run udpRxBatchFrames events).stack.Sublist
        ((RxLink.run udpRxBatchFrames events).handed.filterMap normalise) ∧
      ((RxLink.run udpRxBatchFrames events).ended = none →
        (RxLink.run udpRxBatchFrames events).handed =
          within (bytesRead events).length packets) ∧
      (∀ before r after, events = before ++ .read r :: after →
        (RxLink.run udpRxBatchFrames before).ended = none →
        let now := endingIn packets (bytesRead before).length
          (bytesRead before ++ r.bytes).length
        let loaded := (RxLink.run udpRxBatchFrames before).load udpRxBatchFrames r
        (loaded.2.2 = true ∧ loaded.2.1.Exact now ∧ loaded.2.1.slices = now) ↔
          Fits udpRxBatchFrames now) ∧
      ((∀ before r after, events = before ++ .read r :: after →
          Fits udpRxBatchFrames (endingIn packets (bytesRead before).length
            (bytesRead before ++ r.bytes).length)) →
        (RxLink.run udpRxBatchFrames events).ended ≠ some .invalidFrame)) ∧
    (packets.length ≤ udpRxBatchFrames →
      (receiveUdpBatch udpRxBatchFrames packets).2 = 0 ∧
      ((receiveUdpBatch udpRxBatchFrames packets).1.Exact packets ∧
          (receiveUdpBatch udpRxBatchFrames packets).1.slices = packets ↔
        totalLength packets.dropLast < 65536)) := by
  have hcarried : ∀ pkt ∈ packets, Carried pkt :=
    fun pkt hpkt => ⟨(hvalid pkt hpkt).1, (hvalid pkt hpkt).2.2⟩
  refine ⟨?_, ?_⟩
  · rintro events hreads ⟨future, hstream⟩
    obtain ⟨hsound, hfits⟩ := RxLink.run_sound udpRxBatchFrames hcarried hreads hstream
    refine ⟨hsound.handed, hsound.stack, ?_, ?_, hfits⟩
    · intro hlive
      obtain ⟨rest, hfollows⟩ := hsound.live hlive
      exact hfollows.handed_eq
    · intro before r after hsplit hlive
      subst hsplit
      have hearlier : bytesRead before ++ (r.bytes ++ (bytesRead after ++ future)) =
          Bridge.frames packets := by
        have hbytes : bytesRead (before ++ .read r :: after) =
            bytesRead before ++ (r.bytes ++ bytesRead after) := by
          rw [bytesRead_append]
          rfl
        rw [hbytes, List.append_assoc, List.append_assoc] at hstream
        exact hstream
      obtain ⟨hbefore, -⟩ := RxLink.run_sound udpRxBatchFrames hcarried
        (fun q hq => hreads q (List.mem_append_left _ hq)) hearlier
      obtain ⟨rest, hfollows⟩ := hbefore.live hlive
      obtain ⟨now, later, -, hnow, hiff, hfit⟩ :=
        hfollows.load udpRxBatchFrames (hreads r (by simp))
      rw [← hnow]
      dsimp only
      rw [hiff]
      constructor
      · exact fun hkept => hkept.1
      · intro hfits
        obtain ⟨hbatch, hexact, -⟩ := hfit hfits
        rw [hbatch]
        exact ⟨hfits, hexact, hexact.slices rfl⟩
  · intro hcount
    rw [receiveUdpBatch_eq hcount hoption.2 fun p hp => (hvalid p hp).2]
    refine ⟨rfl, ?_⟩
    rw [RxBatch.taking_exact fun p hp => (hcarried p hp).2]
    constructor
    · exact fun hkept => hkept.1
    · intro hlast
      exact ⟨hlast, ((RxBatch.taking_exact fun p hp => (hcarried p hp).2).mpr hlast).slices rfl⟩

theorem whole_read_refused {udpRxBatchFrames : Nat} {r : Read}
    (hcarried : ∀ pkt ∈ packets, Carried pkt) (hbytes : r.bytes = Bridge.frames packets)
    (hread : r.bytes.length ≤ socketRxBytes) (hlarge : ¬ Fits udpRxBatchFrames packets) :
    (RxLink.init.load udpRxBatchFrames r).2.2 = false := by
  have hinit := RxLink.init_sound hcarried
  rw [← hbytes, ← append_nil r.bytes] at hinit
  obtain ⟨rest, hfollows⟩ := hinit.live rfl
  obtain ⟨now, later, -, hnow, hiff, -⟩ := hfollows.load udpRxBatchFrames hread
  have hall : now = packets := by
    have hwithin := @within_frames packets [] [] nofun
    rw [append_nil, append_nil] at hwithin
    have hnone : within ([] : Bytes).length packets = [] := by
      cases packets with
      | nil => rfl
      | cons pkt rest => simp [within]
    rw [hnow, nil_append, hbytes, endingIn, hwithin, hnone]
    rfl
  rw [hall] at hiff
  exact Bool.eq_false_iff.mpr fun hok => hlarge (hiff.mp hok)

theorem frames_length (packets : List Bytes) :
    (Bridge.frames packets).length = 4 * packets.length + totalLength packets := by
  induction packets with
  | nil => rfl
  | cons pkt rest ih =>
    rw [Bridge.frames_cons, length_append, Bridge.encodeCleanVpnFramedPkt_length, ih,
      length_cons, totalLength_cons]
    omega

theorem totalLength_replicate (n : Nat) (pkt : Bytes) :
    totalLength (List.replicate n pkt) = n * pkt.length := by
  simp [totalLength]

/-- A fragment of 20 bytes of header and `body` bytes, in a packet that the tunnel carries. -/
def sampleFragment (body : Nat) : Bytes :=
  [69, 0, UInt8.ofNat ((20 + body) / 256), UInt8.ofNat (20 + body), 0, 0, 0, 1, 64, 17, 0, 0,
    10, 99, 0, 1, 10, 99, 0, 2] ++ List.replicate body 0

theorem sampleFragment_length (body : Nat) : (sampleFragment body).length = 20 + body := by
  rw [sampleFragment, length_append, length_replicate]
  rfl

/-- With a batch of one datagram a read of two valid frames is refused; with batches of any
size 321 small frames in one read are; and of 48 full datagrams in one drain the offset of the
last does not fit its slot. -/
theorem valid_packets_not_kept :
    (let packets := [sampleFragment 1380, sampleFragment 0];
      (∀ pkt ∈ packets, ipv4Valid pkt = true ∧ 20 ≤ pkt.length ∧ pkt.length ≤ 1400) ∧
      ∀ now session env, (Bridge.frames packets).length ≤ 8192 ∧
        (RxLink.init.load 1 ⟨Bridge.frames packets, now, session, env⟩).2.2 = false) ∧
    (let packets := List.replicate 321 (sampleFragment 0);
      (∀ pkt ∈ packets, ipv4Valid pkt = true ∧ 20 ≤ pkt.length ∧ pkt.length ≤ 1400) ∧
      ∀ now session env, (Bridge.frames packets).length ≤ 8192 ∧
        (RxLink.init.load 64 ⟨Bridge.frames packets, now, session, env⟩).2.2 = false) ∧
    (let packets := List.replicate 48 (sampleFragment 1380);
      (∀ pkt ∈ packets, ipv4Valid pkt = true ∧ 20 ≤ pkt.length ∧ pkt.length ≤ 1400) ∧
      ¬ (receiveUdpBatch 48 packets).1.Exact packets) := by
  have hsmall : ipv4Valid (sampleFragment 0) = true ∧ 20 ≤ (sampleFragment 0).length ∧
      (sampleFragment 0).length ≤ 1400 := by decide
  have hlength : (sampleFragment 1380).length = 1400 := sampleFragment_length 1380
  have hlarge : ipv4Valid (sampleFragment 1380) = true ∧ 20 ≤ (sampleFragment 1380).length ∧
      (sampleFragment 1380).length ≤ 1400 := by
    refine ⟨by decide +kernel, ?_, ?_⟩ <;> omega
  have htwenty : (sampleFragment 0).length = 20 := rfl
  refine ⟨?_, ?_, ?_⟩
  · have hvalid : ∀ pkt ∈ [sampleFragment 1380, sampleFragment 0],
        ipv4Valid pkt = true ∧ 20 ≤ pkt.length ∧ pkt.length ≤ 1400 := by
      intro pkt hpkt
      rw [List.mem_cons, List.mem_singleton] at hpkt
      obtain rfl | rfl := hpkt
      · exact hlarge
      · exact hsmall
    have htotal : totalLength [sampleFragment 1380, sampleFragment 0] = 1420 := by
      rw [totalLength_cons, totalLength_cons, totalLength_nil, hlength, htwenty]
    have hread : (Bridge.frames [sampleFragment 1380, sampleFragment 0]).length ≤ 8192 := by
      rw [frames_length, htotal]
      decide
    refine ⟨hvalid, fun now session env => ⟨hread, ?_⟩⟩
    refine whole_read_refused (fun pkt hpkt => ⟨(hvalid pkt hpkt).1, (hvalid pkt hpkt).2.2⟩) rfl
      hread ?_
    rintro ⟨-, hroom⟩
    rw [htotal] at hroom
    revert hroom
    decide
  · have hvalid : ∀ pkt ∈ List.replicate 321 (sampleFragment 0),
        ipv4Valid pkt = true ∧ 20 ≤ pkt.length ∧ pkt.length ≤ 1400 := by
      intro pkt hpkt
      rw [List.eq_of_mem_replicate hpkt]
      exact hsmall
    have hread : (Bridge.frames (List.replicate 321 (sampleFragment 0))).length ≤ 8192 := by
      rw [frames_length, totalLength_replicate, List.length_replicate, htwenty]
      decide
    refine ⟨hvalid, fun now session env => ⟨hread, ?_⟩⟩
    refine whole_read_refused (fun pkt hpkt => ⟨(hvalid pkt hpkt).1, (hvalid pkt hpkt).2.2⟩) rfl
      hread ?_
    rintro ⟨hslots, -⟩
    rw [List.length_replicate] at hslots
    revert hslots
    decide
  · have hvalid : ∀ pkt ∈ List.replicate 48 (sampleFragment 1380),
        ipv4Valid pkt = true ∧ 20 ≤ pkt.length ∧ pkt.length ≤ 1400 := by
      intro pkt hpkt
      rw [List.eq_of_mem_replicate hpkt]
      exact hlarge
    refine ⟨hvalid, ?_⟩
    rw [receiveUdpBatch_eq (by rw [List.length_replicate]) (by decide)
      fun p hp => (hvalid p hp).2, RxBatch.taking_exact fun p hp => (hvalid p hp).2.2,
      List.dropLast_replicate, totalLength_replicate, hlength]
    decide

/-- Two packets in one read of a build with batches of two datagrams. -/
theorem two_packets_kept :
    let packets := [sampleFragment 0, sampleFragment 1]
    let r : Read := ⟨Bridge.frames packets, 7, true, fun _ => ⟨true, true⟩⟩
    let loaded := RxLink.init.load 2 r
    loaded.2.2 = true ∧ loaded.2.1.Exact packets ∧ loaded.2.1.slices = packets := by
  intro packets r loaded
  have hvalid : ∀ pkt ∈ packets, ipv4Valid pkt = true ∧ 20 ≤ pkt.length ∧ pkt.length ≤ 1400 := by
    decide
  have hiff := ((rx_batch_exact_iff 2 (by decide) packets hvalid).1 [.read r]
    (fun q hq => by
      obtain rfl : q = r := by simpa using hq
      decide)
    ⟨[], rfl⟩).2.2.2.1 [] r [] rfl rfl
  exact hiff.mpr (by decide)

end Meshpn.Device

import Meshpn.Lib.Radix
import Meshpn.Mesh.Packet

/-!
The flow ids that a node gives to the packets it originates. Each copy of the module
`packet.js`, one in the main thread and one in every worker, has a prefix from the time
at which it was loaded and a counter of its own; the wire has room for sixteen
characters. A relay knows a packet by its flow id and its sequence number, and the
sequence number of what a node originates is always zero.
-/

namespace Meshpn.Mesh

open Meshpn.Lib

def hexDigit (digit : Nat) : UInt8 :=
  UInt8.ofNat (if digit < 10 then 48 + digit else 87 + digit)

def hexValue (char : UInt8) : Nat :=
  if char.toNat < 58 then char.toNat - 48 else char.toNat - 87

/-- `n.toString(16)`. -/
def hexText (n : Nat) : Id := (Radix.numeral 16 n).reverse.map hexDigit

/-- `n.toString(16).padStart(8, '0')`. -/
def counterText (n : Nat) : Id := (Radix.padded 16 8 n).map hexDigit

/-- `clock.toString(16).slice(-8)`. -/
def flowIdPrefix (clock : Nat) : Id := (hexText clock).drop ((hexText clock).length - 8)

/-- One copy of the module. -/
structure FlowIds where
  flowIdPrefix : Id
  flowIdCounter : Nat

def FlowIds.generateFlowId (ids : FlowIds) : Id :=
  ids.flowIdPrefix ++ counterText ids.flowIdCounter

def FlowIds.next (ids : FlowIds) : FlowIds := { ids with flowIdCounter := ids.flowIdCounter + 1 }

theorem hexValue_hexDigit : ∀ digit < 16, hexValue (hexDigit digit) = digit := by decide

theorem hexDigit_printable : ∀ digit < 16, hexDigit digit < 0x80 ∧ hexDigit digit ≠ 0 := by
  decide

theorem map_hexDigit_injective {digits other : List Nat} (hdigits : ∀ d ∈ digits, d < 16)
    (hother : ∀ d ∈ other, d < 16) (h : digits.map hexDigit = other.map hexDigit) :
    digits = other := by
  have hback : ∀ {digits : List Nat}, (∀ d ∈ digits, d < 16) →
      (digits.map hexDigit).map hexValue = digits := by
    intro digits hdigits
    rw [List.map_map]
    calc digits.map (hexValue ∘ hexDigit) = digits.map id :=
          List.map_congr_left fun d hd => hexValue_hexDigit d (hdigits d hd)
      _ = digits := List.map_id digits
  rw [← hback hdigits, h, hback hother]

theorem counterText_injective {m n : Nat} (h : counterText m = counterText n) : m = n :=
  Radix.padded_injective (map_hexDigit_injective (fun _ => Radix.padded_lt (by decide))
    (fun _ => Radix.padded_lt (by decide)) h)

theorem counterText_length {n : Nat} (h : n < 4294967296) : (counterText n).length = 8 := by
  rw [counterText, List.length_map]
  exact Radix.padded_length (by decide) (by decide) h

/-- Up to eight hexadecimal digits, as every prefix is. -/
structure PrefixText (text : Id) : Prop where
  short : text.length ≤ 8
  hex : ∃ digits : List Nat, (∀ d ∈ digits, d < 16) ∧ text = digits.map hexDigit

theorem flowIdPrefix_text (clock : Nat) : PrefixText (flowIdPrefix clock) := by
  refine ⟨?_, (Radix.numeral 16 clock).reverse.drop ((hexText clock).length - 8), ?_, ?_⟩
  · rw [flowIdPrefix, List.length_drop]
    omega
  · intro d hd
    exact Radix.numeral_lt (by decide) (List.mem_reverse.mp (List.mem_of_mem_drop hd))
  · rw [flowIdPrefix, List.map_drop]
    rfl

theorem generateFlowId_short {ids : FlowIds} (hload : PrefixText ids.flowIdPrefix)
    (hcounter : ids.flowIdCounter < 4294967296) : ShortId ids.generateFlowId := by
  obtain ⟨digits, hdigits, htext⟩ := hload.hex
  have hchars : ∀ c ∈ ids.generateFlowId, c < 0x80 ∧ c ≠ 0 := by
    intro c hc
    rw [FlowIds.generateFlowId, htext, counterText, ← List.map_append, List.mem_map] at hc
    obtain ⟨d, hd, rfl⟩ := hc
    refine hexDigit_printable d ?_
    rcases List.mem_append.mp hd with hd | hd
    · exact hdigits d hd
    · exact Radix.padded_lt (by decide) hd
  refine ⟨?_, fun c hc => (hchars c hc).1, fun c hc => (hchars c hc).2⟩
  have hwidth := counterText_length hcounter
  have hshort := hload.short
  rw [FlowIds.generateFlowId, List.length_append, hwidth]
  omega

variable {s : Origin} {copies : List FlowIds} {ids other : FlowIds} {copy : Nat}

theorem generateFlowId_injective
    (hids : ids.flowIdCounter < 4294967296) (hother : other.flowIdCounter < 4294967296)
    (h : ids.generateFlowId = other.generateFlowId) : ids = other := by
  have hlength : (counterText ids.flowIdCounter).length =
      (counterText other.flowIdCounter).length := by
    rw [counterText_length hids, counterText_length hother]
  obtain ⟨hload, hcounter⟩ := List.append_inj' h hlength
  obtain ⟨idsPrefix, idsCounter⟩ := ids
  obtain ⟨otherPrefix, otherCounter⟩ := other
  rw [FlowIds.mk.injEq]
  exact ⟨hload, counterText_injective hcounter⟩

/-- The pair that a packet of a copy carries on the wire. -/
def FlowIds.stamp (ids : FlowIds) : Bytes × Nat := (padId ids.generateFlowId, 0)

/-- The copies that were loaded, the main thread's and the workers'; the pairs on the
`DATA` packets so far; and the state in which a copy made each of them. -/
structure Origin where
  copies : List FlowIds
  sent : List (Bytes × Nat)
  made : List FlowIds

inductive IdEvent where
  /-- The module is loaded, by the main thread, a worker or one that replaces it. -/
  | load (clock : Nat)
  /-- A copy makes an id for anything else, or for a packet that is not sent. -/
  | other (copy : Nat)
  /-- A copy serializes a `DATA` packet: a worker, or the main thread in `_fallbackTx`. -/
  | data (copy : Nat)

def Origin.start : Origin := ⟨[], [], []⟩

def Origin.step (s : Origin) : IdEvent → Origin
  | .load clock => { s with copies := s.copies ++ [⟨flowIdPrefix clock, 0⟩] }
  | .other copy => { s with copies := s.copies.modify copy FlowIds.next }
  | .data copy =>
    match s.copies[copy]? with
    | none => s
    | some ids =>
      { copies := s.copies.modify copy FlowIds.next
        sent := s.sent ++ [ids.stamp]
        made := s.made ++ [ids] }

theorem step_data_none (h : s.copies[copy]? = none) :
    s.step (.data copy) = s := by
  simp only [Origin.step, h]

theorem step_data {ids : FlowIds} (h : s.copies[copy]? = some ids) :
    s.step (.data copy) =
      { copies := s.copies.modify copy FlowIds.next
        sent := s.sent ++ [ids.stamp]
        made := s.made ++ [ids] } := by
  simp only [Origin.step, h]

/-- Runs of steps with a property. -/
inductive Origin.Reached (allowed : Origin → IdEvent → Prop) : Origin → Prop where
  | start : Reached allowed .start
  | step {s : Origin} (h : Reached allowed s) {event : IdEvent} (hallowed : allowed s event) :
      Reached allowed (s.step event)

/-- A copy that makes a `DATA` packet has not counted past eight digits. -/
def Origin.Short (s : Origin) (event : IdEvent) : Prop :=
  ∀ copy ids, event = .data copy → s.copies[copy]? = some ids → ids.flowIdCounter < 4294967296

/-- Besides, no copy with the same prefix has made a `DATA` packet at the same count. -/
def Origin.Fresh (s : Origin) (event : IdEvent) : Prop :=
  s.Short event ∧ ∀ copy ids, event = .data copy → s.copies[copy]? = some ids → ids ∉ s.made

/-- Instead, a copy is loaded at a time whose prefix no other copy has. -/
def Origin.LoadsApart (s : Origin) (event : IdEvent) : Prop :=
  s.Short event ∧ ∀ clock, event = .load clock →
    ∀ ids ∈ s.copies, ids.flowIdPrefix ≠ flowIdPrefix clock

/-- What holds of every run in which the counters stay short. -/
structure Origin.Kept (s : Origin) : Prop where
  copies : ∀ ids ∈ s.copies, PrefixText ids.flowIdPrefix
  made : ∀ ids ∈ s.made, PrefixText ids.flowIdPrefix ∧ ids.flowIdCounter < 4294967296
  sent : s.sent = s.made.map FlowIds.stamp

theorem prefix_modify
    (h : ∀ ids ∈ copies, PrefixText ids.flowIdPrefix) :
    ∀ ids ∈ copies.modify copy FlowIds.next, PrefixText ids.flowIdPrefix := by
  intro ids hids
  obtain ⟨i, hi⟩ := List.mem_iff_getElem?.mp hids
  rw [List.getElem?_modify] at hi
  obtain ⟨before, hbefore, hsame⟩ := Option.map_eq_some_iff.mp hi
  have hload := h before (List.mem_of_getElem? hbefore)
  rw [← hsame]
  split
  case isTrue => exact hload
  case isFalse => exact hload

theorem Origin.Kept.step {s : Origin} (h : s.Kept) {event : IdEvent} (hshort : s.Short event) :
    (s.step event).Kept := by
  cases event with
  | load clock =>
    refine ⟨?_, h.made, h.sent⟩
    intro ids hids
    rcases List.mem_append.mp hids with hold | hnew
    · exact h.copies ids hold
    · rw [List.mem_singleton.mp hnew]
      exact flowIdPrefix_text clock
  | other copy => exact ⟨prefix_modify h.copies, h.made, h.sent⟩
  | data copy =>
    cases hids : s.copies[copy]? with
    | none =>
      rw [step_data_none hids]
      exact h
    | some ids =>
      rw [step_data hids]
      refine ⟨prefix_modify h.copies, ?_, ?_⟩
      · intro other hother
        rcases List.mem_append.mp hother with hold | hnew
        · exact h.made other hold
        · rw [List.mem_singleton.mp hnew]
          exact ⟨h.copies ids (List.mem_of_getElem? hids), hshort copy ids rfl hids⟩
      · rw [List.map_append, ← h.sent]
        rfl

theorem Origin.Reached.kept {allowed : Origin → IdEvent → Prop}
    (hallowed : ∀ s event, allowed s event → s.Short event)
    (h : Origin.Reached allowed s) : s.Kept := by
  induction h with
  | start => exact ⟨by simp [Origin.start], by simp [Origin.start], rfl⟩
  | step _ hstep ih => exact ih.step (hallowed _ _ hstep)

theorem stamp_injective
    (hids : PrefixText ids.flowIdPrefix ∧ ids.flowIdCounter < 4294967296)
    (hother : PrefixText other.flowIdPrefix ∧ other.flowIdCounter < 4294967296)
    (h : (stripId ids.stamp.1, ids.stamp.2) = (stripId other.stamp.1, other.stamp.2)) :
    ids = other := by
  have hread : stripId (padId ids.generateFlowId) = stripId (padId other.generateFlowId) :=
    congrArg Prod.fst h
  rw [stripId_padId (generateFlowId_short hids.1 hids.2),
    stripId_padId (generateFlowId_short hother.1 hother.2)] at hread
  exact generateFlowId_injective hids.2 hother.2 hread

/-- Two packets share their pair just where copies with one prefix made them at one count. -/
theorem Origin.Kept.nodup_iff (h : s.Kept) : s.sent.Nodup ↔ s.made.Nodup := by
  rw [h.sent]
  constructor
  · exact List.Nodup.of_map _
  intro hmade
  refine List.Nodup.map_on ?_ hmade
  intro ids hids other hother hsame
  refine stamp_injective (h.made ids hids) (h.made other hother) ?_
  rw [hsame]

theorem Origin.Reached.fresh_nodup (h : Origin.Reached Origin.Fresh s) :
    s.made.Nodup := by
  induction h with
  | start => exact List.nodup_nil
  | @step s _ event hfresh ih =>
    cases event with
    | load clock => exact ih
    | other copy => exact ih
    | data copy =>
      cases hids : s.copies[copy]? with
      | none =>
        rw [step_data_none hids]
        exact ih
      | some ids =>
        rw [step_data hids, List.nodup_append]
        refine ⟨ih, List.nodup_singleton ids, ?_⟩
        intro before hbefore after hafter hsame
        rw [List.mem_singleton.mp hafter] at hsame
        exact hfresh.2 copy ids rfl hids (hsame ▸ hbefore)

/-- No two copies share a prefix, and a copy has counted past every packet it made. -/
structure Origin.Apart (s : Origin) : Prop where
  prefixes : (s.copies.map FlowIds.flowIdPrefix).Nodup
  made : ∀ ids ∈ s.made, ∃ now ∈ s.copies, now.flowIdPrefix = ids.flowIdPrefix ∧
    ids.flowIdCounter < now.flowIdCounter
  nodup : s.made.Nodup

theorem modify_prefixes (copies : List FlowIds) (copy : Nat) :
    (copies.modify copy FlowIds.next).map FlowIds.flowIdPrefix =
      copies.map FlowIds.flowIdPrefix := by
  induction copies generalizing copy with
  | nil => simp
  | cons ids copies ih =>
    cases copy with
    | zero => rfl
    | succ copy =>
      rw [List.modify_succ_cons, List.map_cons, List.map_cons, ih]

theorem counts_modify {ids now : FlowIds}
    (hnow : now ∈ copies) (hload : now.flowIdPrefix = ids.flowIdPrefix)
    (hcount : ids.flowIdCounter < now.flowIdCounter) :
    ∃ later ∈ copies.modify copy FlowIds.next, later.flowIdPrefix = ids.flowIdPrefix ∧
      ids.flowIdCounter < later.flowIdCounter := by
  obtain ⟨i, hi⟩ := List.mem_iff_getElem?.mp hnow
  have hlater : (copies.modify copy FlowIds.next)[i]? =
      some (if copy = i then now.next else now) := by
    rw [List.getElem?_modify, hi]
    split <;> rfl
  refine ⟨_, List.mem_of_getElem? hlater, ?_⟩
  split
  case isTrue => exact ⟨hload, Nat.lt_succ_of_lt hcount⟩
  case isFalse => exact ⟨hload, hcount⟩

theorem prefix_unique (h : (copies.map FlowIds.flowIdPrefix).Nodup) (hids : ids ∈ copies) (hother : other ∈ copies)
    (hsame : ids.flowIdPrefix = other.flowIdPrefix) : ids = other :=
  List.inj_on_of_nodup_map h hids hother hsame

theorem Origin.Apart.step {s : Origin} (h : s.Apart) {event : IdEvent}
    (happart : s.LoadsApart event) : (s.step event).Apart := by
  cases event with
  | load clock =>
    refine ⟨?_, ?_, h.nodup⟩
    · rw [Origin.step, List.map_append, List.map_singleton, List.nodup_append]
      refine ⟨h.prefixes, List.nodup_singleton _, ?_⟩
      intro before hbefore after hafter hsame
      obtain ⟨ids, hids, rfl⟩ := List.mem_map.mp hbefore
      rw [List.mem_singleton.mp hafter] at hsame
      exact happart.2 clock rfl ids hids hsame
    · intro ids hids
      obtain ⟨now, hnow, hfields⟩ := h.made ids hids
      exact ⟨now, List.mem_append_left _ hnow, hfields⟩
  | other copy =>
    refine ⟨?_, ?_, h.nodup⟩
    · rw [Origin.step, modify_prefixes]
      exact h.prefixes
    · intro ids hids
      obtain ⟨now, hnow, hload, hcount⟩ := h.made ids hids
      exact counts_modify hnow hload hcount
  | data copy =>
    cases hids : s.copies[copy]? with
    | none =>
      rw [step_data_none hids]
      exact h
    | some ids =>
      have hmem := List.mem_of_getElem? hids
      rw [step_data hids]
      refine ⟨?_, ?_, ?_⟩
      · rw [modify_prefixes]
        exact h.prefixes
      · intro other hother
        rcases List.mem_append.mp hother with hold | hnew
        · obtain ⟨now, hnow, hload, hcount⟩ := h.made other hold
          exact counts_modify hnow hload hcount
        · rw [List.mem_singleton.mp hnew]
          have hlater : (s.copies.modify copy FlowIds.next)[copy]? = some ids.next := by
            rw [List.getElem?_modify, hids]
            simp
          exact ⟨ids.next, List.mem_of_getElem? hlater, rfl, Nat.lt_succ_self _⟩
      · rw [List.nodup_append]
        refine ⟨h.nodup, List.nodup_singleton ids, ?_⟩
        intro before hbefore after hafter hsame
        rw [List.mem_singleton.mp hafter] at hsame
        obtain ⟨now, hnow, hload, hcount⟩ := h.made before hbefore
        -- the copy that made the earlier packet is this one, which has counted on since
        rw [hsame] at hload hcount
        rw [prefix_unique h.prefixes hnow hmem hload] at hcount
        exact absurd hcount (Nat.lt_irrefl _)

theorem Origin.Reached.apart_nodup (h : Origin.Reached Origin.LoadsApart s) :
    s.made.Nodup := by
  have happart : s.Apart := by
    induction h with
    | start => exact ⟨List.nodup_nil, by simp [Origin.start], List.nodup_nil⟩
    | step _ hstep ih => exact ih.step hstep
  exact happart.nodup

/-- A packet of the node arrives, or the relay forgets a pair that is old. -/
inductive RelayEvent where
  | arrive (packet : Nat)
  | forget (key : Id × Nat)
  deriving DecidableEq

/-- `_isPacketDuplicate`, of a packet with this pair on the wire. -/
def isPacketDuplicate (processed : List (Id × Nat)) (pair : Bytes × Nat) : Bool :=
  processed.contains (stripId pair.1, pair.2)

/-- `processedPackets`, of packets of this node. -/
def processedAfter (sent : List (Bytes × Nat)) (events : List RelayEvent) : List (Id × Nat) :=
  events.foldl (fun processed event =>
    match event with
    | .arrive packet =>
      match sent[packet]? with
      | none => processed
      | some pair =>
        if isPacketDuplicate processed pair then processed
        else (stripId pair.1, pair.2) :: processed
    | .forget key => processed.erase key) []

theorem mem_processedAfter {sent : List (Bytes × Nat)} (events : List RelayEvent)
    {key : Id × Nat} (h : key ∈ processedAfter sent events) :
    ∃ packet pair, .arrive packet ∈ events ∧ sent[packet]? = some pair ∧
      key = (stripId pair.1, pair.2) := by
  induction events using List.reverseRecOn with
  | nil => cases h
  | append_singleton events event ih =>
    have hearlier : key ∈ processedAfter sent events →
        ∃ packet pair, .arrive packet ∈ events ++ [event] ∧ sent[packet]? = some pair ∧
          key = (stripId pair.1, pair.2) := by
      intro hmem
      obtain ⟨packet, pair, harrive, hfields⟩ := ih hmem
      exact ⟨packet, pair, List.mem_append_left _ harrive, hfields⟩
    rw [processedAfter, List.foldl_append, ← processedAfter] at h
    cases event with
    | forget other => exact hearlier (List.mem_of_mem_erase h)
    | arrive packet =>
      simp only [List.foldl_cons, List.foldl_nil] at h
      split at h
      case h_1 => exact hearlier h
      rename_i pair hpair
      split at h
      case isTrue => exact hearlier h
      rcases List.mem_cons.mp h with hnew | hold
      · exact ⟨packet, pair, by simp, hpair, hnew⟩
      · exact hearlier hold

theorem Origin.Kept.no_false_duplicate (h : s.Kept) (hnodup : s.made.Nodup)
    {events : List RelayEvent} {packet : Nat} {pair : Bytes × Nat}
    (hpair : s.sent[packet]? = some pair)
    (hduplicate : isPacketDuplicate (processedAfter s.sent events) pair = true) :
    .arrive packet ∈ events := by
  have hmem : (stripId pair.1, pair.2) ∈ processedAfter s.sent events := by
    simpa [isPacketDuplicate] using hduplicate
  obtain ⟨earlier, other, harrive, hother, hkey⟩ := mem_processedAfter events hmem
  rw [h.sent, List.getElem?_map] at hpair hother
  obtain ⟨ids, hids, rfl⟩ := Option.map_eq_some_iff.mp hpair
  obtain ⟨before, hbefore, rfl⟩ := Option.map_eq_some_iff.mp hother
  have hsame : ids = before := stamp_injective (h.made ids (List.mem_of_getElem? hids))
    (h.made before (List.mem_of_getElem? hbefore)) hkey
  have hlt : packet < s.made.length := (List.getElem?_eq_some_iff.mp hids).1
  have hindex : packet = earlier :=
    (List.getElem?_inj hlt hnodup).mp (by rw [hids, hbefore, hsame])
  rw [hindex]
  exact harrive

/-- While no two copies with one prefix make a `DATA` packet at one count, and none counts
past eight digits, all packets differ and a relay takes none of them for another. With
counters of eight digits this is exact, and copies with prefixes of their own are enough. -/
theorem data_ids_distinct (s : Origin) :
    (Origin.Reached Origin.Fresh s → s.sent.Nodup ∧
      ∀ (events : List RelayEvent) packet pair, s.sent[packet]? = some pair →
        isPacketDuplicate (processedAfter s.sent events) pair = true → .arrive packet ∈ events) ∧
    (Origin.Reached Origin.Short s → (s.sent.Nodup ↔ s.made.Nodup)) ∧
    (Origin.Reached Origin.LoadsApart s → s.sent.Nodup) := by
  refine ⟨fun h => ?_, fun h => ?_, fun h => ?_⟩
  · have hkept := h.kept fun _ _ hfresh => hfresh.1
    exact ⟨hkept.nodup_iff.mpr h.fresh_nodup, fun _ _ _ => hkept.no_false_duplicate h.fresh_nodup⟩
  · exact (h.kept fun _ _ hshort => hshort).nodup_iff
  · have hkept := h.kept fun _ _ happart => happart.1
    exact hkept.nodup_iff.mpr h.apart_nodup

/-- The main thread and two workers; the workers were loaded in the same millisecond. -/
def twinEvents : List IdEvent :=
  [.load 1700000000000, .load 1700000000100, .load 1700000000100, .data 1, .data 2]

/-- Their first packets share a flow id, and the relay drops the second of them. Past eight
digits a copy repeats even its own ids. -/
theorem twin_workers_clash :
    ¬(twinEvents.foldl Origin.step .start).sent.Nodup ∧
    (∃ pair, (twinEvents.foldl Origin.step .start).sent[1]? = some pair ∧
      isPacketDuplicate (processedAfter (twinEvents.foldl Origin.step .start).sent [.arrive 0])
        pair = true) ∧
    (FlowIds.mk (flowIdPrefix 1700000000000) 4294967296).stamp =
      (FlowIds.mk (flowIdPrefix 1700000000000) 4294967297).stamp := by
  refine ⟨by decide +kernel, ⟨_, rfl, by decide +kernel⟩, by decide +kernel⟩

end Meshpn.Mesh

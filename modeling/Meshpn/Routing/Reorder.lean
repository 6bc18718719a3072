import Mathlib.Data.List.Perm.Subperm
import Meshpn.Routing.SchedulerRuns

/-!
From the scheduler to the receiver: the buffer remembers flow id and number of a copied packet
and passes its first copy on. What it remembers it forgets only after twice its timeout.
-/

namespace Meshpn.Routing

open Meshpn.Lib List

def Packet.id (packet : Packet) : String × Nat := (packet.flowId, packet.seq)

namespace ReorderBuffer

def arrived (arrivals : List Arrival) : List Packet :=
  arrivals.filterMap fun arrival =>
    match arrival with
    | .packet packet _ => some packet
    | .cleanup _ => none

def Timely (timeout : Nat) (arrivals : List Arrival) : Prop :=
  ∀ packet time now, .packet packet time ∈ arrivals → .cleanup now ∈ arrivals →
    now ≤ time + timeout * 2

section Buffer

variable {buffer : ReorderBuffer} {id : String × Nat} {arrivals : List Arrival}

theorem get_deleteAll (entries : List ((String × Nat) × Nat)) (seen : Table (String × Nat) Nat) :
    (entries.foldl (fun seen entry => seen.delete entry.1) seen).get id =
      if id ∈ entries.map Prod.fst then none else seen.get id := by
  induction entries generalizing seen with
  | nil => rfl
  | cons entry rest ih =>
    rw [foldl_cons, ih, Table.get_delete, map_cons]
    by_cases hin : id ∈ rest.map Prod.fst
    · rw [if_pos hin, if_pos (mem_cons_of_mem _ hin)]
    rw [if_neg hin]
    by_cases hfirst : entry.1 = id
    · rw [if_pos hfirst, if_pos (hfirst ▸ mem_cons_self)]
    have hout : id ∉ entry.1 :: rest.map Prod.fst := by
      rw [mem_cons, not_or]
      exact ⟨fun h => hfirst h.symm, hin⟩
    rw [if_neg hfirst, if_neg hout]

theorem cleanup_get {time now : Nat} (h : buffer.seenMultipath.get id = some time)
    (hnow : now ≤ time + buffer.timeout * 2) :
    (buffer.cleanup now).seenMultipath.get id = some time := by
  have hkept : id ∉ (buffer.seenMultipath.entries.filter fun entry =>
      decide (now - entry.2 > buffer.timeout * 2)).map Prod.fst := by
    intro hin
    obtain ⟨⟨key, value⟩, hentry, rfl⟩ := mem_map.mp hin
    rw [mem_filter, decide_eq_true_eq] at hentry
    have hvalue := Table.get_of_mem value hentry.1
    rw [h] at hvalue
    obtain rfl := Option.some.inj hvalue
    have hold := hentry.2
    dsimp only at hold
    omega
  rw [cleanup, get_deleteAll, if_neg hkept, h]

theorem cleanup_none {now : Nat} (h : buffer.seenMultipath.get id = none) :
    (buffer.cleanup now).seenMultipath.get id = none := by
  rw [cleanup, get_deleteAll, h, ite_self]

theorem addPacket_timeout (packet : Packet) (now : Nat) :
    (buffer.addPacket packet now).2.timeout = buffer.timeout := by
  unfold addPacket
  split
  · split <;> rfl
  · rfl

theorem addPacket_other {packet : Packet} {now : Nat} (h : packet.id ≠ id) :
    (buffer.addPacket packet now).2.seenMultipath.get id = buffer.seenMultipath.get id := by
  unfold addPacket
  split
  · split
    · rfl
    · exact (Table.get_set _ _ _ _).trans (if_neg h)
  · rfl

theorem addPacket_other_count {packet : Packet} {now : Nat} (h : packet.id ≠ id) :
    (buffer.addPacket packet now).1.toList.countP (fun p => p.id = id) = 0 := by
  have hnone : (decide (packet.id = id)) = false := decide_eq_false h
  unfold addPacket
  split
  · split
    · rfl
    · simp [hnone]
  · simp [hnone]

theorem addPacket_known {packet : Packet} {now time j total : Nat} (hid : packet.id = id)
    (hcopy : packet.copy = some (j, total)) (htotal : 1 < total)
    (h : buffer.seenMultipath.get id = some time) : buffer.addPacket packet now = (none, buffer) := by
  have hhas : buffer.seenMultipath.has (packet.flowId, packet.seq) = true := by
    change buffer.seenMultipath.has packet.id = true
    rw [hid, Table.has, h]
    rfl
  rw [addPacket, hcopy, if_pos (by simpa using htotal), if_pos hhas]

theorem addPacket_new {packet : Packet} {j total : Nat} (now : Nat) (hid : packet.id = id)
    (hcopy : packet.copy = some (j, total)) (htotal : 1 < total)
    (h : buffer.seenMultipath.get id = none) :
    (buffer.addPacket packet now).1 = some packet ∧
      (buffer.addPacket packet now).2.seenMultipath.get id = some now := by
  have hhas : ¬ buffer.seenMultipath.has (packet.flowId, packet.seq) = true := by
    change ¬ buffer.seenMultipath.has packet.id = true
    rw [hid, Table.has, h]
    exact Bool.false_ne_true
  rw [addPacket, hcopy, if_pos (by simpa using htotal), if_neg hhas]
  refine ⟨rfl, ?_⟩
  rw [← hid]
  exact Table.get_set_self _ _ _

theorem timely_tail {timeout : Nat} {arrival : Arrival} {rest : List Arrival}
    (h : Timely timeout (arrival :: rest)) : Timely timeout rest :=
  fun packet time now hpacket hcleanup =>
    h packet time now (mem_cons_of_mem _ hpacket) (mem_cons_of_mem _ hcleanup)

theorem delivered_known {total time : Nat} (htotal : 1 < total)
    (hcopies : ∀ p ∈ arrived arrivals, p.id = id → ∃ j, p.copy = some (j, total))
    (hcleanups : ∀ now, .cleanup now ∈ arrivals → now ≤ time + buffer.timeout * 2)
    (h : buffer.seenMultipath.get id = some time) :
    (buffer.delivered arrivals).countP (fun p => p.id = id) = 0 := by
  induction arrivals generalizing buffer with
  | nil => rfl
  | cons arrival rest ih =>
    have hlater : ∀ now, .cleanup now ∈ rest → now ≤ time + buffer.timeout * 2 :=
      fun now hnow => hcleanups now (mem_cons_of_mem _ hnow)
    cases arrival with
    | packet packet now =>
      have hrest : ∀ p ∈ arrived rest, p.id = id → ∃ j, p.copy = some (j, total) :=
        fun p hp => hcopies p (mem_cons_of_mem _ hp)
      rw [delivered, countP_append]
      by_cases hid : packet.id = id
      · obtain ⟨j, hcopy⟩ := hcopies packet mem_cons_self hid
        rw [addPacket_known hid hcopy htotal h]
        exact (Nat.zero_add _).trans (ih hrest hlater h)
      · rw [addPacket_other_count hid, Nat.zero_add]
        refine ih hrest ?_ ((addPacket_other hid).trans h)
        rw [addPacket_timeout]
        exact hlater
    | cleanup now =>
      rw [delivered]
      exact ih (fun p hp => hcopies p hp) hlater (cleanup_get h (hcleanups now mem_cons_self))

theorem delivered_copies {total : Nat} (htotal : 1 < total)
    (hcopies : ∀ p ∈ arrived arrivals, p.id = id → ∃ j, p.copy = some (j, total))
    (htimely : Timely buffer.timeout arrivals) (hsome : ∃ p ∈ arrived arrivals, p.id = id)
    (h : buffer.seenMultipath.get id = none) :
    (buffer.delivered arrivals).countP (fun p => p.id = id) = 1 := by
  induction arrivals generalizing buffer with
  | nil =>
    obtain ⟨p, hp, -⟩ := hsome
    cases hp
  | cons arrival rest ih =>
    cases arrival with
    | packet packet now =>
      have hrest : ∀ p ∈ arrived rest, p.id = id → ∃ j, p.copy = some (j, total) :=
        fun p hp => hcopies p (mem_cons_of_mem _ hp)
      rw [delivered, countP_append]
      by_cases hid : packet.id = id
      · obtain ⟨j, hcopy⟩ := hcopies packet mem_cons_self hid
        obtain ⟨hpassed, hknown⟩ := addPacket_new now hid hcopy htotal h
        have hnone := delivered_known htotal hrest (fun later hlater => ?_) hknown
        · rw [hnone, hpassed]
          simp [hid]
        · rw [addPacket_timeout]
          exact htimely packet now later mem_cons_self (mem_cons_of_mem _ hlater)
      · rw [addPacket_other_count hid, Nat.zero_add]
        refine ih hrest ?_ ?_ ((addPacket_other hid).trans h)
        · rw [addPacket_timeout]
          exact timely_tail htimely
        · obtain ⟨p, hp, hpid⟩ := hsome
          rcases mem_cons.mp hp with rfl | hin
          · exact absurd hpid hid
          · exact ⟨p, hin, hpid⟩
    | cleanup now =>
      rw [delivered]
      exact ih (fun p hp => hcopies p hp) (timely_tail htimely) hsome (cleanup_none h)

theorem delivered_single {total : Nat} (htotal : total ≤ 1)
    (hcopies : ∀ p ∈ arrived arrivals, p.id = id → ∃ j, p.copy = some (j, total)) :
    (buffer.delivered arrivals).countP (fun p => p.id = id) =
      (arrived arrivals).countP fun p => p.id = id := by
  induction arrivals generalizing buffer with
  | nil => rfl
  | cons arrival rest ih =>
    cases arrival with
    | packet packet now =>
      have hrest : ∀ p ∈ arrived rest, p.id = id → ∃ j, p.copy = some (j, total) :=
        fun p hp => hcopies p (mem_cons_of_mem _ hp)
      have harrived : arrived (.packet packet now :: rest) = packet :: arrived rest := rfl
      rw [delivered, countP_append, ih hrest, harrived, countP_cons, Nat.add_comm]
      by_cases hid : packet.id = id
      · obtain ⟨j, hcopy⟩ := hcopies packet mem_cons_self hid
        have hpassed : (buffer.addPacket packet now).1 = some packet := by
          rw [addPacket, hcopy, if_neg (by simpa using htotal)]
        rw [hpassed]
        simp [hid]
      · rw [addPacket_other_count hid]
        simp [hid]
    | cleanup now =>
      rw [delivered]
      exact ih fun p hp => hcopies p hp

end Buffer

end ReorderBuffer

namespace MultipathScheduler

open ReorderBuffer

theorem init_sound (flowId : String) : (init flowId).Sound :=
  ⟨nodup_nil, fun _ hpath => by cases hpath⟩

theorem packets_fresh {flowId : String} {first rest : List SchedulerOp} {op : SchedulerOp}
    (hcovered : (init flowId).Covered (first ++ op :: rest))
    (hflows : (flowId :: (first ++ op :: rest).filterMap SchedulerOp.drawn).Nodup)
    (hdrawn : op.drawn = none) {p other : Packet}
    (hp : p ∈ (((init flowId).after first).step op).packets)
    (hother : other ∈ (init flowId).emitted first ++
      ((init flowId).after (first ++ [op])).emitted rest) : other.id ≠ p.id := by
  obtain ⟨hfirst, hsound, hcurrent⟩ := covered_append (init_sound flowId) hcovered
  have hnumbers := step_numbers hsound hcurrent.1 hdrawn
  obtain ⟨hpflow, hpseq⟩ := hnumbers.marks p hp
  have hmore : (((init flowId).after first).step op).scheduler.sequenceNumber =
      ((init flowId).after first).sequenceNumber + 1 := by
    rcases hnumbers.number with ⟨hnone, -⟩ | hmore
    · rw [hnone] at hp
      cases hp
    · exact hmore
  rw [filterMap_append, ← cons_append, nodup_append,
    filterMap_cons_none hdrawn] at hflows
  have hsame : ((init flowId).after first).flowId ∈
      flowId :: first.filterMap SchedulerOp.drawn := after_flowId (init_sound flowId) hfirst
  intro hid
  obtain ⟨hflow, hseq⟩ := Prod.mk.inj hid
  rcases mem_append.mp hother with hearlier | hlater
  · have hless := emitted_earlier [] (init_sound flowId) hfirst hflows.1
      (fun _ hin => by cases hin) (fun _ hin => by cases hin) other hearlier
      (hflow.trans hpflow)
    omega
  · rw [after_append] at hlater
    rcases emitted_later (step_sound hsound hcurrent.1).1 hcurrent.2 other hlater with
      ⟨-, hge⟩ | hreset
    · omega
    · rw [hflow, hpflow] at hreset
      exact hflows.2.2 _ hsame _ hreset rfl

end MultipathScheduler

end Meshpn.Routing
